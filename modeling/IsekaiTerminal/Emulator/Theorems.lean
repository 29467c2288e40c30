import IsekaiTerminal.Emulator.Lemmas.AltScreen
import IsekaiTerminal.Emulator.Lemmas.Page
import IsekaiTerminal.Emulator.Lemmas.WidePair
import IsekaiTerminal.Emulator.Lemmas.Search
import IsekaiTerminal.Emulator.Lemmas.ScreenUpdate
import IsekaiTerminal.Emulator.Lemmas.Shift
import IsekaiTerminal.Emulator.Lemmas.Apc
import IsekaiTerminal.Emulator.Lemmas.Images
import IsekaiTerminal.Emulator.Lemmas.SixelCanvas

/-!
# 端末の主結果

どの列でも構造は保たれ、panic しない。平文の出力は、限りのないページの窓と、その手前の履歴になる。
alt の画面の間の操作は、main の画面に触れない。発行の損傷は、カーソルの色の変化を除いて変化を隠さない。
履歴の検索は、セルの境で始まって終わる一致をすべて、1 度ずつ報告する。ずらす操作は、行の列の操作に等しい。
プロンプトへのジャンプは、ライブ画面のカーソルより上にプロンプトがなければ、進んで終わる。
-/

namespace IsekaiTerminal.Emulator

/-- 全角文字のない環境。 -/
def asciiEnv : Env :=
  { width := fun _ => some 1, base64Decode := fun _ => none, pngDecode := fun _ => none, hlsToRgb := fun _ _ _ => (0, 0, 0),
    parseAiPanelApc := fun _ => none }

def plainTheme : Theme := { ansi16 := fun n => UInt32.ofNat (n.val + 2), defaultFg := 1, defaultBg := 0 }

/-! ## 構造 -/

/-- どの大きさから始めても、どの列でも panic せず、構造の不変条件が成り立つ。 -/
theorem terminal_invariant (env : Env) (cols rows : Nat) (theme : Theme) (events : List Event) :
    ∃ t, (Terminal.new cols rows theme).exec env events = some t ∧ t.WellFormed ∧
      t.mainCells.flatten.length = t.cols * t.rows ∧ t.altCells.flatten.length = t.cols * t.rows := by
  obtain ⟨t, hexec, hwf⟩ := Terminal.exec_wellFormed env (.new cols rows theme) events
  exact ⟨t, hexec, hwf, hwf.main.length_flatten, hwf.alt.length_flatten⟩

/-! ## 全角文字の組 -/

/-- 2 列以上の画面では、印字も消去も組を分断しないかぎり、どの状態でも本体と占有のセルは対応する。 -/
theorem wide_paired (env : Env) (hspace : env.width ' ' = some 1) (cols rows : Nat) (hcols : 2 ≤ cols) (theme : Theme)
    (events : List Event) (hkeeps : (Terminal.new cols rows theme).KeepsPairs env events) :
    ∃ t, (Terminal.new cols rows theme).exec env events = some t ∧ t.Paired env := by
  have hwf : (Terminal.new cols rows theme).WellFormed := .new cols rows theme
  have hspace : env.width ' ' ≠ some 2 := by
    rw [hspace]
    decide
  obtain ⟨t, hexec, -⟩ := Terminal.exec_wellFormed env hwf events
  have hclean := Terminal.exec_clean hspace hwf (Terminal.new_clean hspace hcols rows theme) hkeeps hexec
  exact ⟨t, hexec, hclean.paired⟩

/-- 平仮名だけが幅 2 である環境。 -/
def kanaEnv : Env :=
  { asciiEnv with width := fun c => some (if 0x3041 ≤ c.toNat ∧ c.toNat ≤ 0x3096 then 2 else 1) }

/-- 2 列の画面に幅 2 の文字を 2 つ書く。2 つめは次の行へ送られる。 -/
theorem wide_paired_kana :
    ∃ t, (Terminal.new 2 1 plainTheme).exec kanaEnv [.print 'あ', .print 'い'] = some t ∧ t.Paired kanaEnv := by
  refine wide_paired kanaEnv rfl 2 1 (by decide) plainTheme [.print 'あ', .print 'い'] ⟨by decide, rfl, ?_⟩
  rintro _ ⟨⟩
  exact ⟨by decide, rfl, fun _ _ => trivial⟩

/-- 本体へ幅 1 の文字を上書きすると、占有のセルだけが残る。 -/
theorem not_wide_paired :
    ¬∀ (env : Env), env.width ' ' = some 1 → ∀ (cols rows : Nat) (theme : Theme), 2 ≤ cols → ∀ events : List Event,
      (∀ ev ∈ events, Terminal.narrows ev = false) →
        ∀ t, (Terminal.new cols rows theme).exec env events = some t → t.Paired env := by
  intro h
  have hpaired := h kanaEnv rfl 2 1 plainTheme (by decide) [.print 'あ', .execute 0x0D, .print 'a'] (by decide) _ rfl
  have hrow := hpaired.main _ List.mem_cons_self
  obtain ⟨-, left, hleft, hhead⟩ := (hrow.placeholder 1 _ rfl).mp rfl
  cases hleft
  exact absurd hhead (by decide)

/-! ## 平文の出力 -/

/-- 画面は、ページの `total_scrolled_lines` 行目からの窓である。 -/
structure Terminal.Displays (t : Terminal) (rows : Nat) (p : Page) : Prop where
  cells : t.cells = (List.range rows).map fun i => p.rows (t.totalScrolledLines + i)
  row : p.row = t.totalScrolledLines + t.cursor.row
  col : p.col = t.cursor.col

/-- バッチの後も、その途中でも、画面はページの窓である。履歴は、窓の手前の行を新しい順に 1000 行まで持つ。 -/
theorem plain_output (env : Env) (cols rows : Nat) (theme : Theme) (batches : List (List PlainOp)) (ops : List PlainOp)
    (hwidth : ∀ c, .char c ∈ batches.flatten ++ ops → charWidth env c = 1) :
    ∃ t scrollback t', runBatches env (.new cols rows theme, []) batches = some (t, scrollback) ∧
      t.exec env (ops.map PlainOp.event) = some t' ∧
      t.Displays (max rows 1) (Page.run (max cols 1) theme batches.flatten) ∧
      t'.Displays (max rows 1) (Page.run (max cols 1) theme (batches.flatten ++ ops)) ∧
      t.totalScrolledLines ≤ t'.totalScrolledLines ∧
      scrollback = (Page.run (max cols 1) theme batches.flatten).newest t.totalScrolledLines
        (min 1000 t.totalScrolledLines) := by
  have hbatches (c : Char) (hc : .char c ∈ batches.flatten) : charWidth env c = 1 :=
    hwidth c (List.mem_append_left _ hc)
  have hops (c : Char) (hc : .char c ∈ ops) : charWidth env c = 1 := hwidth c (List.mem_append_right _ hc)
  have hdisplays {t : Terminal} {scrollback : List Row} {p : Page}
      (h : PageView (max cols 1) (max rows 1) theme t scrollback p) : t.Displays (max rows 1) p :=
    ⟨by rw [h.cells_eq, h.cells, h.height], h.row, h.col⟩
  obtain ⟨t, scrollback, hrun, hview, hscrollback, -⟩ := runBatches_view env (.new cols rows theme) rfl hbatches
  obtain ⟨t', hexec, hview', htotal⟩ := hview.exec env hops
  refine ⟨t, scrollback, t', hrun, hexec, hdisplays hview, ?_, htotal, hscrollback⟩
  rw [Page.run, List.foldl_append]
  exact hdisplays hview'

/-- 2 列 1 行の画面で、折り返しと改行が 1 行ずつ送り出す。 -/
theorem plain_output_wrapped :
    ∃ t scrollback t', runBatches asciiEnv (.new 2 1 plainTheme, []) [[.char 'a', .char 'b', .char 'c']] = some (t, scrollback) ∧
      t.exec asciiEnv [.execute 0x0A] = some t' ∧
      t.Displays 1 (Page.run 2 plainTheme [.char 'a', .char 'b', .char 'c']) ∧
      t'.Displays 1 (Page.run 2 plainTheme [.char 'a', .char 'b', .char 'c', .lf]) ∧
      t.totalScrolledLines ≤ t'.totalScrolledLines ∧
      scrollback = (Page.run 2 plainTheme [.char 'a', .char 'b', .char 'c']).newest t.totalScrolledLines
        (min 1000 t.totalScrolledLines) :=
  plain_output asciiEnv 2 1 plainTheme [[.char 'a', .char 'b', .char 'c']] [.lf] fun _ _ => rfl

/-! ## alt の画面 -/

theorem Terminal.Shadows.entered {t t' : Terminal} (h : t.WellFormed) (hwf : t'.WellFormed) (hmain : t.altActive = false)
    (hswitch : t.switchToAlt true = some t') : t'.Shadows t.kept t := by
  rw [switchToAlt, if_neg (by simp [hmain])] at hswitch
  obtain ⟨_, -, heq⟩ := Option.bind_eq_some_iff.mp hswitch
  injection heq with heq
  subst heq
  exact ⟨hwf, h, rfl, hmain, rfl, rfl, .refl _, rfl, .refl _, rfl⟩

theorem Terminal.Shadows.left {k : Kept} {t u : Terminal} (h : t.Shadows k u) :
    (t.switchToMain true).SameMain k u := by
  rw [switchToMain, if_neg (by simp [h.alt])]
  refine ⟨⟨rfl, h.main⟩, h.cells.chars, h.cells, ?_, h.scrollback, h.total⟩
  simp only [clearImages, h.saved, ↓reduceIte, Option.getD_some]

/-- alt の画面の間にどの操作を挟んでも、main の画面には、同じリサイズだけを行ったときと、そのリサイズの補った余白の属性しか
違いがない。 -/
theorem alt_isolated (env : Env) (s : SessionState) (h : s.Reachable env) (hmain : s.terminal.altActive = false)
    (events : List Event) (hevents : ∀ ev ∈ events, ev.isAltExit = false ∧ ev.isReset = false) :
    ∃ t u, s.terminal.exec env (.enterAlt :: events ++ [.leaveAlt]) = some t ∧
      s.terminal.exec env (events.filter Event.isResize) = some u ∧
      t.SameMain (s.terminal.keptAfter env s.terminal.kept (events.filter Event.isResize)) u := by
  have hwf := h.consistent.terminal
  obtain ⟨t₁, henter, hwf₁⟩ := Terminal.step_wellFormed env hwf .enterAlt
  have hswitch : s.terminal.switchToAlt true = some t₁ := by
    have heq : s.terminal.step env .enterAlt = (s.terminal.switchToAlt true).bind some := rfl
    rwa [heq, Option.bind_fun_some] at henter
  obtain ⟨t₂, hexec, -⟩ := Terminal.exec_wellFormed env hwf₁ events
  obtain ⟨u, hu, hshadows⟩ := Terminal.Shadows.exec hevents (.entered hwf hwf₁ hmain hswitch) hexec
  refine ⟨t₂.switchToMain true, u, ?_, hu, hshadows.left⟩
  have hleave : t₂.step env .leaveAlt = some (t₂.switchToMain true) := rfl
  rw [Terminal.exec] at hexec ⊢
  rw [List.cons_append, List.foldlM_cons, henter, Option.bind_eq_bind, Option.bind_some, List.foldlM_append, hexec,
    Option.bind_eq_bind, Option.bind_some, List.foldlM_cons, hleave]
  rfl

/-- 1 列 2 行の画面で改行した後の状態。 -/
def lineFed : SessionState :=
  { SessionState.new 1 2 plainTheme with terminal := (Terminal.new 1 2 plainTheme).setCursorRow 1 }

theorem lineFed_reachable : lineFed.Reachable asciiEnv :=
  @SessionState.Reachable.apply _ _ _ (.stdout [.execute 0x0A]) _ (.new 1 2 plainTheme) rfl

/-- 背景を赤にして、広げてから縮める。 -/
def redAndResize : List Event := [.csiDispatch [⟨41, []⟩] [] 'm', .resize 2 2, .resize 2 1]

/-- 広げた列は、alt の画面の今の背景の空白で埋まるので、履歴の行の属性は一致しない。 -/
theorem not_alt_isolated :
    ¬∀ (env : Env) (s : SessionState), s.Reachable env → s.terminal.altActive = false →
      ∀ events : List Event, (∀ ev ∈ events, ev.isAltExit = false ∧ ev.isReset = false) →
        ∀ t u, s.terminal.exec env (.enterAlt :: events ++ [.leaveAlt]) = some t →
          s.terminal.exec env (events.filter Event.isResize) = some u → t.pendingScrollback = u.pendingScrollback := by
  intro h
  have heq := h asciiEnv lineFed lineFed_reachable rfl redAndResize (by decide) _ _ rfl rfl
  exact absurd heq (by decide)

theorem alt_isolated_red :
    ∃ t u, lineFed.terminal.exec asciiEnv (.enterAlt :: redAndResize ++ [.leaveAlt]) = some t ∧
      lineFed.terminal.exec asciiEnv [.resize 2 2, .resize 2 1] = some u ∧
      t.SameMain ⟨[1], [1]⟩ u :=
  alt_isolated asciiEnv lineFed lineFed_reachable rfl redAndResize (by decide)

/-! ## 損傷 -/

/-- どの操作を挟んでも、前の発行と次の発行は panic しない。構造が変わるか、損傷が `u16` に収まるなら、
次の発行が変化を隠さないのは、構造が変わったか、カーソルの色の変化がほかの損傷に覆われるときに限る。 -/
theorem damage_hidesNothing (env : Env) (s : SessionState) (h : s.Reachable env) (ops : List SessionState.Op) :
    ∃ f s₁ s₂ g s₃, s.makeScreenUpdate = some (f, s₁) ∧ s₁.run env ops = some s₂ ∧ s₂.makeScreenUpdate = some (g, s₃) ∧
      (s₂.terminal.fullDamagePending = true ∨ s₂.Untruncated s.terminal.screenCells →
        (HidesNothing env s₁ ops f g ↔
          s₂.terminal.fullDamagePending = true ∨ s₂.ColorCovered s.terminal.screenCells s.terminal.host.cursorColor)) := by
  have hcons := h.consistent
  obtain ⟨f, hf⟩ := SessionState.makeScreenUpdate_some (SessionState.dirtyRows_ne_none hcons)
  obtain ⟨-, -, hshows⟩ := SessionState.makeScreenUpdate_eq hf
  have hemitted := SessionState.emitted_consistent hcons.terminal
  obtain ⟨s₂, hrun, hwf₂, hsame⟩ := SessionState.run_some env hemitted.terminal ops
  have hcons₂ : s₂.Consistent := ⟨hwf₂, by rw [hsame.cells, hsame.cols, hsame.rows]; exact hemitted.emitted⟩
  obtain ⟨g, hg⟩ := SessionState.makeScreenUpdate_some (SessionState.dirtyRows_ne_none hcons₂)
  exact ⟨f, s.emitted, s₂, g, s₂.emitted, hf, hrun, hg, hidesNothing_iff hcons.terminal hshows hrun hg⟩

/-- 1 文字の印字の変化は隠れない。 -/
theorem damage_hidesNothing_print :
    ∃ f s₁ s₂ g s₃, (SessionState.new 1 1 plainTheme).makeScreenUpdate = some (f, s₁) ∧
      s₁.run asciiEnv [.stdout [.print 'a']] = some s₂ ∧ s₂.makeScreenUpdate = some (g, s₃) ∧
      HidesNothing asciiEnv s₁ [.stdout [.print 'a']] f g := by
  obtain ⟨f, s₁, s₂, g, s₃, hf, hrun, hg, hiff⟩ :=
    damage_hidesNothing asciiEnv (.new 1 1 plainTheme) (.new 1 1 plainTheme) [.stdout [.print 'a']]
  obtain ⟨rfl, -, -⟩ := SessionState.makeScreenUpdate_eq hf
  refine ⟨f, _, s₂, g, s₃, hf, hrun, hg, ?_⟩
  cases hrun
  have hfollows := @SessionState.run_follows (.new 1 1 plainTheme) _ asciiEnv [.stdout [.print 'a']]
    (.new 1 1 plainTheme) rfl rfl
  exact (hiff (.inr (hfollows.untruncated (by decide) (by decide)))).mpr (.inr (.inl rfl))

/-- OSC 12 で、カーソルの色だけを赤にする。 -/
def recolor : List SessionState.Op := [.stdout [.oscDispatch [bytesOf "12", bytesOf "#ff0000"] true]]

/-- カーソルの色だけが変わったとき、損傷は空で、カーソルの位置は描き直されない。 -/
theorem not_damage_hidesNothing :
    ¬∀ (env : Env) (s : SessionState), s.Reachable env → ∀ (ops : List SessionState.Op) (f g : ScreenUpdate)
      (s₁ s₂ s₃ : SessionState), s.makeScreenUpdate = some (f, s₁) → s₁.run env ops = some s₂ →
        s₂.makeScreenUpdate = some (g, s₃) → HidesNothing env s₁ ops f g := by
  intro h
  have hides := h asciiEnv (.new 1 1 plainTheme) (.new 1 1 plainTheme) recolor _ _ _ _ _ rfl rfl rfl
  have hcursor := (hides.covers [] (by decide)).cursor 0 0 (by decide)
  exact absurd hcursor (by decide)

/-! ## 履歴の検索 -/

/-- 検索の結果は、連続するセルの並びのうち、つないだ文字列が語に等しいもののそれぞれを 1 つの一致とし、
行の順、左から右の順に並べたものである。 -/
theorem searchScrollback_exact (env : Env) (scrollback : List Row) (hpair : ∀ row ∈ scrollback, PairedRow env row)
    (htext : ∀ row ∈ scrollback, HasText row) (query : List Char) (hquery : query ≠ []) (caseSensitive : Bool) :
    searchScrollback scrollback query caseSensitive =
        scrollback.zipIdx.flatMap (fun (row, rowIdx) =>
          ((Lib.runs (glyphs env row)).filter fun r =>
            (textOf r).map (foldCase caseSensitive) = query.map (foldCase caseSensitive)).map (matchOf rowIdx)) ∧
      (searchScrollback scrollback query caseSensitive).Pairwise fun m m' =>
        m.row < m'.row ∨ m.row = m'.row ∧ m.col < m'.col := by
  have hneedle : query.map (foldCase caseSensitive) ≠ [] := by rwa [ne_eq, List.map_eq_nil_iff]
  have hsearch : searchScrollback scrollback query caseSensitive = scrollback.zipIdx.flatMap fun (row, rowIdx) =>
      searchRow caseSensitive (query.map (foldCase caseSensitive)) row rowIdx := by
    rw [searchScrollback, if_neg (by rwa [List.isEmpty_iff])]
  refine ⟨?_, ?_⟩
  · rw [hsearch]
    refine List.flatMap_congr fun p hp => ?_
    have hmem := List.fst_mem_of_mem_zipIdx hp
    exact searchRow_eq (hpair p.1 hmem) (htext p.1 hmem) caseSensitive hneedle p.2
  · rw [hsearch, List.pairwise_flatMap]
    refine ⟨fun p hp => ?_, ?_⟩
    · have hmem := List.fst_mem_of_mem_zipIdx hp
      exact (pairwise_searchRow (hpair p.1 hmem) (htext p.1 hmem) caseSensitive hneedle p.2).imp fun h => .inr h
    · have hindex : scrollback.zipIdx.Pairwise fun p p' => p.2 < p'.2 := by
        have hsorted : (List.range' 0 scrollback.length).Pairwise (· < ·) := List.pairwise_lt_range'
        rwa [← List.zipIdx_map_snd, List.pairwise_map] at hsorted
      refine hindex.imp_of_mem fun {p p'} hp hp' hlt m hm m' hm' => .inl ?_
      have hmem := List.fst_mem_of_mem_zipIdx hp
      have hmem' := List.fst_mem_of_mem_zipIdx hp'
      rw [row_eq_of_mem_searchRow (hpair p.1 hmem) (htext p.1 hmem) hneedle hm,
        row_eq_of_mem_searchRow (hpair p'.1 hmem') (htext p'.1 hmem') hneedle hm']
      exact hlt

/-- 「漢」だけが幅 2 である環境。 -/
def kanjiEnv : Env := { asciiEnv with width := fun c => some (if c = '漢' then 2 else 1) }

def plainCell (ch : List Char) : TermCell := { blankCellForTheme plainTheme with ch := ch }

/-- 「漢」と、その占有のセルと、合成文字をもつ「E」。 -/
def kanjiRow : Row :=
  [plainCell ['漢'], { plainCell [' '] with isWidePlaceholder := true }, plainCell ['E', Char.ofNat 0x301]]

theorem kanjiRow_paired : PairedRow kanjiEnv kanjiRow := by
  constructor
  · rintro (_ | _ | _ | c) cell hcell
    · cases hcell
      exact Iff.intro (fun h => by cases h) fun h => absurd h.1 (Nat.lt_irrefl 0)
    · cases hcell
      exact ⟨fun _ => ⟨by decide, _, rfl, by decide⟩, fun _ => rfl⟩
    · cases hcell
      refine Iff.intro (fun h => by cases h) ?_
      rintro ⟨-, left, hat, hleft⟩
      cases hat
      exact absurd hleft (by decide)
    · cases hcell
  · rintro (_ | _ | _ | c) cell hcell hwide hlt
    · exact ⟨_, rfl, rfl⟩
    · cases hcell
      exact absurd hwide (by decide)
    · exact absurd hlt (by decide)
    · cases hcell

theorem kanjiRow_hasText : HasText kanjiRow := by
  intro cell hcell _
  simp only [kanjiRow, List.mem_cons, List.not_mem_nil, or_false] at hcell
  obtain rfl | rfl | rfl := hcell <;> exact List.cons_ne_nil _ _

/-- 「漢é」は 3 列を占める。「é」を分ける「漢e」は一致しない。 -/
theorem searchScrollback_exact_kanji :
    searchScrollback [kanjiRow] ['漢', 'e', Char.ofNat 0x301] false = [⟨0, 0, 3⟩] ∧
      searchScrollback [kanjiRow] ['漢', 'e'] false = [] := by
  have hexact := searchScrollback_exact kanjiEnv [kanjiRow]
    (List.forall_mem_singleton.2 kanjiRow_paired) (List.forall_mem_singleton.2 kanjiRow_hasText)
  exact ⟨(hexact _ (by decide) false).1.trans (by decide), (hexact _ (by decide) false).1.trans (by decide)⟩

/-! ## ずらす操作 -/

/-- 9 つの制御は、どの個数でも失敗せず、行の列の操作に等しい。領域の外の行、カーソル、余白、隠れている画面は変わらない。
履歴へは、main の画面を一番上から送り出す SU と LF だけが、抑えた個数の行を上から順に送る。 -/
theorem shift_refines (env : Env) (t : Terminal) (h : t.WellFormed) (s : Shift) (hcount : 1 ≤ s.count)
    (hat : s.AtMargin t) :
    (∃ t', t.shift env s = some t' ∧ Shifted env s t t') ∧
      ∀ ev, Shift.Sends ev s → ∃ t', t.step env ev = some t' ∧ Shifted env s t t' :=
  ⟨Shift.exists_shifted h s hcount hat, fun _ hsends => hsends.exists_shifted h hat⟩

theorem shift_refines_su :
    (∃ t', (Terminal.new 2 2 plainTheme).shift asciiEnv (.su 5) = some t' ∧
      Shifted asciiEnv (.su 5) (.new 2 2 plainTheme) t') ∧
      ∀ ev, Shift.Sends ev (.su 5) → ∃ t', (Terminal.new 2 2 plainTheme).step asciiEnv ev = some t' ∧
        Shifted asciiEnv (.su 5) (.new 2 2 plainTheme) t' :=
  shift_refines asciiEnv (.new 2 2 plainTheme) (.new 2 2 plainTheme) (.su 5) (by decide) trivial

/-- 待ち行列の上限を超えると、送り出した行の一部は残らない。 -/
theorem exists_scrolledOff_lost :
    ∃ t t' : Terminal, t.WellFormed ∧ t.scrollTop = 0 ∧ t.altActive = false ∧
      t.shift asciiEnv (.su 2001) = some t' ∧
      t'.pendingScrollback ≠ t.pendingScrollback ++ (Shift.su 2001).scrolledOff t := by
  have hwf : (Terminal.new 1 2001 plainTheme).WellFormed := .new 1 2001 plainTheme
  have hcells : (Terminal.new 1 2001 plainTheme).cells.length = 2001 := hwf.cells.length
  have hoff : ((Shift.su 2001).scrolledOff (.new 1 2001 plainTheme)).length = 2001 := by
    rw [Shift.scrolledOff, List.length_take, hcells]
    rfl
  refine ⟨.new 1 2001 plainTheme, _, hwf, rfl, rfl, Terminal.scrollUpRegion_eq hwf 2001, fun heq => ?_⟩
  have hkept : ((Terminal.new 1 2001 plainTheme).scrolledUp 2001).pendingScrollback =
      trimmed ((Shift.su 2001).scrolledOff (.new 1 2001 plainTheme)) :=
    Terminal.scrolledUp_pushed ⟨rfl, rfl⟩ 2001
  have hall : ((Terminal.new 1 2001 plainTheme).scrolledUp 2001).pendingScrollback =
      (Shift.su 2001).scrolledOff (.new 1 2001 plainTheme) := heq
  have hlen := congrArg List.length (hall.symm.trans hkept)
  rw [trimmed, if_pos (by rw [hoff]; decide), List.length_drop, hoff, scrollbackLimit] at hlen
  omega

/-! ## プロンプトへのジャンプ -/

/-- くり返しのジャンプは、ライブ画面のカーソルより上にプロンプトの行がないとき、そのときに限り、進んで終わる。 -/
theorem navigates_iff (t : Terminal) :
    Navigates t ↔
      ¬∃ r, t.Reachable r ∧ t.totalScrolledLines ≤ r ∧ r < t.totalScrolledLines + t.cursor.row := by
  constructor
  · rintro hnavigates ⟨r, hreach, hlive, hlt⟩
    obtain ⟨rows, -, -, hvisits⟩ := hnavigates.previous
    exact hvisits.ne_of_fixed (Terminal.jump_previous_fixed hreach hlive hlt)
  · intro hnone
    refine ⟨Terminal.exists_previous_visits fun r hreach hlt => ?_, fun offset _ => t.exists_next_chain offset,
      fun _ _ _ => Terminal.offset_lt⟩
    by_contra hlive
    exact hnone ⟨r, hreach, Nat.le_of_not_lt hlive, hlt⟩

/-- プロンプトの次の行では、前へのジャンプはライブ画面に留まり続ける。 -/
theorem exists_jump_stuck :
    ∃ t, (Terminal.new 1 2 plainTheme).exec asciiEnv
        [.oscDispatch [bytesOf "133", bytesOf "A"] true, .execute 0x0A] = some t ∧ ¬Navigates t := by
  refine ⟨_, rfl, fun hnavigates => ?_⟩
  obtain ⟨rows, -, -, hvisits⟩ := hnavigates.previous
  exact hvisits.ne_of_fixed rfl

/-!
## 画像の主結果

APC の切り出しは入力を分け、分割した Kitty の転送は、まとめた転送と同じ操作になる。Sixel の復号は、上限の列に達しない
かぎり、文法が読む図を返す。
-/

/-! ## Kitty graphics -/

/-- 入力は、通すバイト、完成した APC、中断した APC、残りに分かれ、出力はその順に並ぶ。分け方によらない。
分割した転送は、最後の分割でだけ、まとめた転送と同じ操作になる。置く画像の画素は、上限に収まる大きさに合う。 -/
theorem apcInterceptor_kittyGraphics (env : Env) (input : List UInt8) (chunks : List (List UInt8))
    (control first last : List UInt8) (middle : List (List UInt8)) (k : KittyGraphics) (payload : List UInt8)
    (img : KittyImage) :
    (∃ pieces rest, Partition input pieces rest) ∧
      (∀ pieces rest, Partition input pieces rest →
        input = pieces.flatMap Piece.bytes ++ rest.bytes ∧
          (ApcInterceptor.new.feedAll input).1 = pieces.filterMap Piece.emission? ∧
          (ApcInterceptor.new.feedAll input).2.state = rest.state) ∧
      ApcInterceptor.new.feedChunks chunks = ApcInterceptor.new.feedAll chunks.flatten ∧
      (IsTransmit control → (first ++ middle.flatten ++ last).length ≤ maxApcPayload →
        KittyGraphics.new.dispatchAll env (chunkPayloads control first middle last) =
          (List.replicate (middle.length + 1) .none ++
            [(KittyGraphics.new.dispatch env (transmission control (first ++ middle.flatten ++ last))).1], .new)) ∧
      ((k.dispatch env payload).1 = .place img →
        dimsOk img.width img.height = true ∧ img.rgba.length = 4 * (img.width * img.height)) := by
  refine ⟨exists_partition input, fun pieces rest h => ?_, ApcInterceptor.feedChunks_eq .new chunks,
    fun hcontrol hlen => KittyGraphics.dispatchAll_chunks env hcontrol first middle last hlen,
    fun hplace => KittyGraphics.dispatch_sized hplace⟩
  exact ⟨h.bytes_eq, ApcInterceptor.feedAll_of_partition h [] false⟩

/-- 4 文字の base64 から 3 バイトを復号する環境。 -/
def pixelEnv : Env :=
  { asciiEnv with base64Decode := fun data => if data = bytesOf "AAAA" then some [0, 0, 0] else none }

/-- 3 つに分けた 1 画素の転送は、最後に表示の指示になる。 -/
theorem apcInterceptor_kittyGraphics_pixel :
    KittyGraphics.new.dispatchAll pixelEnv
        (chunkPayloads (bytesOf "a=T,f=24,s=1,v=1,i=7") (bytesOf "A") [bytesOf "AA"] (bytesOf "A")) =
      ([.none, .none, .place ⟨some 7, 1, 1, [0, 0, 0, 255]⟩], .new) := by
  have hcontrol : IsTransmit (bytesOf "a=T,f=24,s=1,v=1,i=7") := ⟨by decide, by decide, by decide, by decide⟩
  have hwhole : (KittyGraphics.new.dispatch pixelEnv
      (transmission (bytesOf "a=T,f=24,s=1,v=1,i=7") (bytesOf "A" ++ [bytesOf "AA"].flatten ++ bytesOf "A"))).1 =
        .place ⟨some 7, 1, 1, [0, 0, 0, 255]⟩ := by
    decide
  have hchunks := (apcInterceptor_kittyGraphics pixelEnv [] [] (bytesOf "a=T,f=24,s=1,v=1,i=7") (bytesOf "A")
    (bytesOf "A") [bytesOf "AA"] .new [] ⟨none, 0, 0, []⟩).2.2.2.1 hcontrol (by decide)
  rw [hchunks, hwhole]
  rfl

/-- 終わらない APC は、通すバイトと、完成した APC と、中断した APC と、保留の ESC のどれにも属さない。 -/
theorem exists_unfinished_apc :
    ¬∀ input : List UInt8, ∃ pieces rest, Partition input pieces rest ∧ (rest = .clean ∨ rest = .heldEsc) := by
  intro h
  obtain ⟨pieces, rest, hpart, hrest⟩ := h [escByte, underscore]
  have hstate := (ApcInterceptor.feedAll_of_partition hpart [] false).2
  obtain rfl | rfl := hrest
  · exact absurd hstate (by decide)
  · exact absurd hstate (by decide)

/-! ## Sixel -/

open Sixel SixelDecoder

/-- 復号は、描画を受け付けるとき、そのときに限り、描画の述べる図を返す。途中で保持する画素も、上限に収まる。 -/
structure Decodes (env : Env) (input : List UInt8) (drawn : List Stroke) : Prop where
  isSome_iff : (feedAll env .new input).finish.isSome = true ↔ Accepted drawn
  image : ∀ img, (feedAll env .new input).finish = some img →
    img = picture drawn ∧ img.rgba.length = 4 * (img.width * img.height)
  stored : ∀ front, front <+: input → ((feedAll env .new front).rows.map List.length).sum ≤ maxSixelArea

theorem isSome_finish_iff {env : Env} {input : List UInt8} {cs : List Command} (h : Reads input cs) :
    (feedAll env .new input).finish.isSome = true ↔
      Paintable (drawing env .start cs) ∧ dots (drawing env .start cs) ≠ [] := by
  have hpainted : (feedAll env .new input).canvas.Painted (drawing env .start cs) := by
    rw [canvas_new h]
    exact Canvas.painted _
  rw [Option.isSome_iff_exists]
  constructor
  · rintro ⟨img, himg⟩
    exact ((finish_eq_some_iff hpainted img).1 himg).1
  · exact fun hall => ⟨picture _, (finish_eq_some_iff hpainted _).2 ⟨hall, rfl⟩⟩

/-- 復号器が描ける描画は、受け付ける描画のうち、ペンが上限の列に達しないものである。 -/
theorem paintable_iff_accepted {drawn : List Stroke} (hne : dots drawn ≠ []) :
    Paintable drawn ↔ Accepted drawn ∧ .advance maxSixelDim ∉ drawn := by
  constructor
  · rintro ⟨hinside, hpen, harea⟩
    exact ⟨⟨hne, hinside, fun x hx => (hpen x hx).le, harea⟩, fun hmem => Nat.lt_irrefl _ (hpen _ hmem)⟩
  · rintro ⟨⟨-, hinside, hpen, harea⟩, hmem⟩
    exact ⟨hinside, fun x hx => Nat.lt_of_le_of_ne (hpen x hx) fun heq => hmem (heq ▸ hx), harea⟩

/-- 復号は、受け付ける描画のペンが上限の列にちょうど達するときを除き、文法が読む描画の図を返す。 -/
theorem sixelDecoder_decodes_iff (env : Env) (input : List UInt8) :
    (∃ cs, Reads input cs) ∧ ∀ cs, Reads input cs →
      (Decodes env input (drawing env .start cs) ↔
        ¬(Accepted (drawing env .start cs) ∧ .advance maxSixelDim ∈ drawing env .start cs)) := by
  refine ⟨exists_reads input, fun cs h => ⟨fun hdecodes hall => ?_, fun hnot => ⟨?_, fun img himg => ?_, ?_⟩⟩⟩
  · have hfits := ((isSome_finish_iff h).1 (hdecodes.isSome_iff.2 hall.1)).1
    exact ((paintable_iff_accepted hall.1.drawn).1 hfits).2 hall.2
  · rw [isSome_finish_iff h]
    constructor
    · rintro ⟨hfits, hne⟩
      exact ((paintable_iff_accepted hne).1 hfits).1
    · intro haccepted
      exact ⟨(paintable_iff_accepted haccepted.drawn).2 ⟨haccepted, fun hmem => hnot ⟨haccepted, hmem⟩⟩, haccepted.drawn⟩
  · have hpainted : (feedAll env .new input).canvas.Painted (drawing env .start cs) := by
      rw [canvas_new h]
      exact Canvas.painted _
    obtain rfl := ((finish_eq_some_iff hpainted img).1 himg).2
    exact ⟨rfl, length_picture _⟩
  -- 読みかけの入力も、文法で読める。
  · intro front _
    obtain ⟨cs', h'⟩ := exists_reads front
    have hstored := (Canvas.painted (drawing env .start cs')).stored
    rwa [← canvas_new h'] at hstored

theorem mem_dots_iff {drawn : List Stroke} {p : Nat × Nat} :
    p ∈ dots drawn ↔ ∃ argb, .dot p.1 p.2 argb ∈ drawn := by
  rw [dots, List.mem_filterMap]
  constructor
  · rintro ⟨s, hs, hp⟩
    cases s with
    | dot x y argb =>
        cases hp
        exact ⟨argb, hs⟩
    | advance x => cases hp
  · rintro ⟨argb, hs⟩
    exact ⟨_, hs, rfl⟩

/-- 原点から右へ引く、長さ `n` の線。 -/
def line (n : Nat) (argb : UInt32) : List Stroke := (List.range n).flatMap fun j => [.dot j 0 argb, .advance (j + 1)]

theorem mem_line_iff {n : Nat} {argb : UInt32} {s : Stroke} :
    s ∈ line n argb ↔ ∃ j < n, s = .dot j 0 argb ∨ s = .advance (j + 1) := by
  rw [line, List.mem_flatMap]
  simp only [List.mem_range, List.mem_cons, List.not_mem_nil, or_false]

/-- 幅が上限にちょうど等しい線は、受け付ける描画である。 -/
theorem line_accepted (argb : UInt32) : Accepted (line maxSixelDim argb) := by
  have hdots (p : Nat × Nat) (hp : p ∈ dots (line maxSixelDim argb)) : p.1 < maxSixelDim ∧ p.2 = 0 := by
    obtain ⟨value, hmem⟩ := mem_dots_iff.1 hp
    obtain ⟨j, hj, hs | hs⟩ := mem_line_iff.1 hmem
    · injection hs with hx hy
      exact ⟨hx ▸ hj, hy⟩
    · cases hs
  have hfirst : (0, 0) ∈ dots (line maxSixelDim argb) :=
    mem_dots_iff.2 ⟨argb, mem_line_iff.2 ⟨0, by decide, Or.inl rfl⟩⟩
  have hmaxX : maxX (line maxSixelDim argb) ≤ maxSixelDim - 1 := by
    refine List.max_le_of_forall_le _ _ fun x hx => ?_
    obtain ⟨p, hp, rfl⟩ := List.mem_map.1 hx
    exact Nat.le_pred_of_lt (hdots p hp).1
  have hmaxY : maxY (line maxSixelDim argb) ≤ 0 := by
    refine List.max_le_of_forall_le _ _ fun y hy => ?_
    obtain ⟨p, hp, rfl⟩ := List.mem_map.1 hy
    exact (hdots p hp).2.le
  refine ⟨List.ne_nil_of_mem hfirst, fun p hp => ⟨(hdots p hp).1, ?_⟩, fun x hx => ?_, ?_⟩
  · rw [(hdots p hp).2]
    decide
  · obtain ⟨j, hj, hs | hs⟩ := mem_line_iff.1 hx
    · cases hs
    · rw [Stroke.advance.inj hs]
      exact Nat.succ_le_of_lt hj
  · exact (Nat.mul_le_mul (Nat.succ_le_succ hmaxX) (Nat.succ_le_succ hmaxY)).trans (by decide)

/-- 線の右端でペンは上限の列に達し、復号器は受け付ける描画を捨てる。入力は `!4096@` である。 -/
theorem exists_sixel_dropped :
    ∃ input cs, Reads input cs ∧ ∀ env, ¬Decodes env input (drawing env .start cs) := by
  have hread : Reads [0x21, 0x34, 0x30, 0x39, 0x36, 0x40] [.draw (times [0x34, 0x30, 0x39, 0x36]) 0x40] :=
    .repeated (show ∀ b ∈ [0x34, 0x30, 0x39, 0x36], isDigit b = true by simp [isDigit]) (by decide) .nil
  refine ⟨_, _, hread, fun env hdecodes => ?_⟩
  have hline : drawing env .start [.draw (times [0x34, 0x30, 0x39, 0x36]) 0x40] = line maxSixelDim Pen.start.argb := by
    have htimes : times [0x34, 0x30, 0x39, 0x36] = maxSixelDim := by
      rw [times, show number [0x34, 0x30, 0x39, 0x36] = 4096 by decide]
      decide
    rw [drawing, drawing, List.append_nil, strokes, htimes, line]
    simp only [show Pen.start.x = 0 from rfl, Nat.zero_add]
    rfl
  have hsome := hdecodes.isSome_iff.2 (by rw [hline]; exact line_accepted _)
  have hfits := ((isSome_finish_iff hread).1 hsome).1
  rw [hline] at hfits
  exact Nat.lt_irrefl _ (hfits.pen _ (mem_line_iff.2 ⟨maxSixelDim - 1, by decide, Or.inr rfl⟩))

end IsekaiTerminal.Emulator
