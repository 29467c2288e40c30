import IsekaiTerminal.Emulator.Kitty

/-!
# Kitty の分割転送の補題

分割した転送は、1 つにまとめた転送と同じ保留に行き着く。
-/

namespace IsekaiTerminal.Emulator

/-! ## 本体の解析 -/

theorem splitPayload_transmission {control : List UInt8} (h : semicolon ∉ control) (data : List UInt8) :
    splitPayload (transmission control data) = (gByte :: control, data) := by
  have hne : ∀ b ∈ gByte :: control, decide (b ≠ semicolon) = true := by
    intro b hb
    rw [decide_eq_true_eq]
    rintro rfl
    obtain hg | hc := List.mem_cons.1 hb
    · exact absurd hg (by decide)
    · exact h hc
  have hstop : decide (semicolon ≠ semicolon) = false := by decide
  rw [splitPayload, transmission, ← List.cons_append, List.takeWhile_append_of_pos hne, List.dropWhile_append_of_pos hne,
    List.takeWhile_cons_of_neg (by rw [hstop]; exact Bool.false_ne_true),
    List.dropWhile_cons_of_neg (by rw [hstop]; exact Bool.false_ne_true), List.append_nil]
  rfl

theorem splitOn_ne_nil {α : Type} [DecidableEq α] (sep : α) (l : List α) : splitOn sep l ≠ [] := by
  cases l with
  | nil => exact List.cons_ne_nil _ _
  | cons x xs =>
      rw [splitOn]
      split
      · exact List.cons_ne_nil _ _
      · split <;> exact List.cons_ne_nil _ _

theorem splitOn_append {α : Type} [DecidableEq α] (sep : α) (l r : List α) :
    splitOn sep (l ++ sep :: r) = splitOn sep l ++ splitOn sep r := by
  induction l with
  | nil => simp only [List.nil_append, splitOn, ↓reduceIte, List.cons_append]
  | cons x l ih =>
      rw [List.cons_append, splitOn, splitOn, ih]
      by_cases hx : x = sep
      · rw [if_pos hx, if_pos hx, List.cons_append]
      · rw [if_neg hx, if_neg hx]
        obtain ⟨part, parts, hl⟩ := List.exists_cons_of_ne_nil (splitOn_ne_nil sep l)
        rw [hl]
        rfl

theorem parseControl_append (control : List UInt8) :
    parseControl (gByte :: (control ++ comma :: moreKey true)) =
      parseControl (gByte :: control) ++ [(0x6d, [0x31])] := by
  change (splitOn comma (control ++ comma :: moreKey true)).filterMap parseControlPart = _
  rw [splitOn_append, List.filterMap_append]
  rfl

section Keys

variable (keys : List (UInt8 × List UInt8))

theorem kittyValue_append_more (k : Char) (hk : (k.toNat.toUInt8 == 0x6d) = false) :
    kittyValue (keys ++ [(0x6d, [0x31])]) k = kittyValue keys k := by
  have hne : ¬ (0x6d : UInt8) = k.toNat.toUInt8 := by
    intro h
    rw [← h] at hk
    exact absurd hk (by decide)
  rw [kittyValue, kittyValue, List.find?_append, List.find?_cons_of_neg (by simpa using hne), List.find?_nil,
    Option.or_none]

theorem kittyNum_append_more (k : Char) (hk : (k.toNat.toUInt8 == 0x6d) = false) :
    kittyNum (keys ++ [(0x6d, [0x31])]) k = kittyNum keys k := by
  rw [kittyNum, kittyNum, kittyValue_append_more keys k hk]

theorem kittyNum_append_m (h : kittyValue keys 'm' = none) : kittyNum (keys ++ [(0x6d, [0x31])]) 'm' = some 1 := by
  have hfind : keys.find? (·.1 = 'm'.toNat.toUInt8) = none := Option.map_eq_none_iff.1 h
  have hvalue : kittyValue (keys ++ [(0x6d, [0x31])]) 'm' = some [0x31] := by
    rw [kittyValue, List.find?_append, hfind]
    rfl
  rw [kittyNum, hvalue]
  rfl

end Keys

namespace KittyGraphics

variable (env : Env)

/-! ## 分割転送 -/

/-- 制御の文字列が始める保留。 -/
def pendingOf (control data : List UInt8) : Pending :=
  let keys := parseControl (gByte :: control)
  { format := (kittyNum keys 'f').getD 32 % 2 ^ 32
    width := (kittyNum keys 's').getD 0 % 2 ^ 32
    height := (kittyNum keys 'v').getD 0 % 2 ^ 32
    kittyId := kittyNum keys 'i'
    display := true
    payloadB64 := data }

theorem dispatchAll_cons (k : KittyGraphics) (payload : List UInt8) (rest : List (List UInt8)) :
    dispatchAll env k (payload :: rest) =
      ((k.dispatch env payload).1 :: (dispatchAll env (k.dispatch env payload).2 rest).1,
        (dispatchAll env (k.dispatch env payload).2 rest).2) := rfl

theorem dispatchAll_append (k : KittyGraphics) (first second : List (List UInt8)) :
    dispatchAll env k (first ++ second) =
      ((dispatchAll env k first).1 ++ (dispatchAll env (dispatchAll env k first).2 second).1,
        (dispatchAll env (dispatchAll env k first).2 second).2) := by
  induction first generalizing k with
  | nil => rfl
  | cons payload first ih => rw [List.cons_append, dispatchAll_cons, ih, dispatchAll_cons, List.cons_append]

variable {control : List UInt8}

/-- まとめた転送は、そのまま画像になる。 -/
theorem dispatch_single (h : IsTransmit control) (data : List UInt8) :
    KittyGraphics.new.dispatch env (transmission control data) = (finalize env (pendingOf control data), .new) := by
  have hdisplay := h.display
  have hchr : kittyChr (parseControl (gByte :: control)) 't' = none := by rw [kittyChr, h.direct]; rfl
  have hnum : kittyNum (parseControl (gByte :: control)) 'm' = none := by rw [kittyNum, h.unchunked]; rfl
  simp only [dispatch, splitPayload_transmission h.noSemicolon, KittyGraphics.new, hdisplay, startTransmit, hchr, proceed,
    hnum, pendingOf]
  rfl

/-- 最初の分割は、保留になる。 -/
theorem dispatch_first (h : IsTransmit control) (data : List UInt8) :
    KittyGraphics.new.dispatch env (transmission (control ++ comma :: moreKey true) data) =
      (.none, { pending := some (pendingOf control data) }) := by
  have hsemi : semicolon ∉ control ++ comma :: moreKey true := by
    intro hmem
    obtain hmem | hmem := List.mem_append.1 hmem
    · exact h.noSemicolon hmem
    · exact absurd hmem (by decide)
  have hdisplay := h.display
  have hmore := kittyNum_append_m _ h.unchunked
  simp only [kittyAction, kittyChr] at hdisplay
  simp only [dispatch, splitPayload_transmission hsemi, parseControl_append, KittyGraphics.new, kittyAction, kittyChr,
    kittyValue_append_more _ 'a' rfl, hdisplay, startTransmit, kittyValue_append_more _ 't' rfl, h.direct, proceed, hmore,
    kittyNum_append_more _ 'f' rfl, kittyNum_append_more _ 's' rfl, kittyNum_append_more _ 'v' rfl,
    kittyNum_append_more _ 'i' rfl, pendingOf]
  rfl

theorem dispatch_continue (pending : Pending) (more : Bool) {data : List UInt8}
    (hlen : pending.payloadB64.length + data.length ≤ maxApcPayload) :
    dispatch env { pending := some pending } (transmission (moreKey more) data) =
      if more then (.none, { pending := some { pending with payloadB64 := pending.payloadB64 ++ data } })
      else (finalize env { pending with payloadB64 := pending.payloadB64 ++ data }, .new) := by
  have hsemi : semicolon ∉ moreKey more := by cases more <;> decide
  rw [dispatch, splitPayload_transmission hsemi]
  simp only [continueTransmit, if_pos hlen, proceed]
  cases more <;> rfl

/-- 途中の分割は、保留に順に足される。 -/
theorem dispatchAll_middle (pending : Pending) (middle : List (List UInt8))
    (hlen : pending.payloadB64.length + middle.flatten.length ≤ maxApcPayload) :
    dispatchAll env { pending := some pending } (middle.map (transmission (moreKey true))) =
      (List.replicate middle.length .none,
        { pending := some { pending with payloadB64 := pending.payloadB64 ++ middle.flatten } }) := by
  induction middle generalizing pending with
  | nil => rw [List.flatten_nil, List.append_nil]; rfl
  | cons data middle ih =>
      rw [List.flatten_cons, List.length_append] at hlen
      rw [List.map_cons, dispatchAll_cons, dispatch_continue env pending true (by omega)]
      simp only [↓reduceIte]
      rw [ih _ (by rw [List.length_append]; omega)]
      simp only [List.flatten_cons, List.append_assoc, List.length_cons, List.replicate_succ]

/-- 分割した転送は、最後の分割で、まとめた転送と同じ操作になる。 -/
theorem dispatchAll_chunks (h : IsTransmit control) (first : List UInt8) (middle : List (List UInt8)) (last : List UInt8)
    (hlen : (first ++ middle.flatten ++ last).length ≤ maxApcPayload) :
    dispatchAll env .new (chunkPayloads control first middle last) =
      (List.replicate (middle.length + 1) .none ++
        [(KittyGraphics.new.dispatch env (transmission control (first ++ middle.flatten ++ last))).1], .new) := by
  rw [List.length_append, List.length_append] at hlen
  rw [chunkPayloads, dispatchAll_cons, dispatch_first env h, dispatchAll_append,
    dispatchAll_middle env _ middle (by change first.length + _ ≤ _; omega), dispatchAll_cons,
    dispatch_continue env _ false (by change (first ++ _).length + _ ≤ _; rw [List.length_append]; omega),
    dispatch_single env h]
  rfl

end KittyGraphics

/-!
## APC の切り出しの補題

収集の途中の状態は、それまでの本体で決まる。地の状態からの走査は、文法の分け方のとおりに進む。
-/

/-! ## 文法 -/

theorem Partition.bytes_eq {input : List UInt8} {pieces : List Piece} {rest : Rest} (h : Partition input pieces rest) :
    input = pieces.flatMap Piece.bytes ++ rest.bytes := by
  induction h with
  | clean => rfl
  | heldEsc => rfl
  | unfinished h => rfl
  | unfinishedEsc h => rfl
  | passed hb h ih => exact congrArg (_ :: ·) ih
  | passedEsc hc h ih => exact congrArg (_ :: ·) ih
  | apc hbody hst h ih =>
      rw [List.flatMap_cons, Piece.bytes, List.append_assoc, List.cons_append, List.cons_append, ← ih, List.append_assoc]
  | aborted hbody hc h ih =>
      rw [List.flatMap_cons, Piece.bytes, List.append_assoc, List.cons_append, List.cons_append, ← ih]

/-- 本体の続くかぎり読むと、終わりか、ESC か、1 バイトの ST に着く。 -/
theorem exists_plainBody (input : List UInt8) :
    ∃ body rest, input = body ++ rest ∧ PlainBody body ∧
      (rest = [] ∨ ∃ b tail, rest = b :: tail ∧ (b = escByte ∨ b = stByte)) := by
  induction input with
  | nil => exact ⟨[], [], rfl, fun b hb => absurd hb List.not_mem_nil, Or.inl rfl⟩
  | cons b input ih =>
      by_cases hb : b = escByte ∨ b = stByte
      · exact ⟨[], b :: input, rfl, fun x hx => absurd hx List.not_mem_nil, Or.inr ⟨b, input, rfl, hb⟩⟩
      · rw [not_or] at hb
        obtain ⟨body, rest, rfl, hbody, hrest⟩ := ih
        refine ⟨b :: body, rest, rfl, fun x hx => ?_, hrest⟩
        obtain rfl | hx := List.mem_cons.1 hx
        · exact hb
        · exact hbody x hx

/-- どの入力も、片の並びと残りに分かれる。 -/
theorem exists_partition (input : List UInt8) : ∃ pieces rest, Partition input pieces rest := by
  induction hn : input.length using Nat.strong_induction_on generalizing input with
  | _ n ih =>
    have hshort : ∀ later : List UInt8, later.length < n → ∃ pieces rest, Partition later pieces rest :=
      fun later hlt => ih later.length hlt later rfl
    obtain _ | ⟨b, input⟩ := input
    · exact ⟨_, _, .clean⟩
    · by_cases hb : b = escByte
      · subst hb
        obtain _ | ⟨c, input⟩ := input
        · exact ⟨_, _, .heldEsc⟩
        · rw [List.length_cons, List.length_cons] at hn
          by_cases hc : c = underscore
          · subst hc
            obtain ⟨body, rest, rfl, hbody, rfl | ⟨d, tail, rfl, rfl | rfl⟩⟩ := exists_plainBody input
            · rw [List.append_nil]
              exact ⟨_, _, .unfinished hbody⟩
            · obtain _ | ⟨e, tail⟩ := tail
              · exact ⟨_, _, .unfinishedEsc hbody⟩
              · simp only [List.length_append, List.length_cons] at hn
                by_cases he : e = backslash
                · subst he
                  obtain ⟨pieces, rest, h⟩ := hshort tail (by omega)
                  exact ⟨_, _, .apc hbody (.inl rfl) h⟩
                · obtain ⟨pieces, rest, h⟩ := hshort (escByte :: e :: tail)
                    (by rw [List.length_cons, List.length_cons]; omega)
                  exact ⟨_, _, .aborted hbody he h⟩
            · simp only [List.length_append, List.length_cons] at hn
              obtain ⟨pieces, rest, h⟩ := hshort tail (by omega)
              exact ⟨_, _, .apc hbody (.inr rfl) h⟩
          · obtain ⟨pieces, rest, h⟩ := hshort (c :: input) (by rw [List.length_cons]; omega)
            exact ⟨_, _, .passedEsc hc h⟩
      · rw [List.length_cons] at hn
        obtain ⟨pieces, rest, h⟩ := hshort input (by omega)
        exact ⟨_, _, .passed hb h⟩

namespace ApcInterceptor

/-! ## 走査 -/

theorem feedAll_cons (ic : ApcInterceptor) (byte : UInt8) (rest : List UInt8) :
    ic.feedAll (byte :: rest) =
      ((ic.feed byte).1.emissions ++ ((ic.feed byte).2.feedAll rest).1, ((ic.feed byte).2.feedAll rest).2) := rfl

theorem feedAll_append (ic : ApcInterceptor) (first second : List UInt8) :
    ic.feedAll (first ++ second) =
      ((ic.feedAll first).1 ++ ((ic.feedAll first).2.feedAll second).1, ((ic.feedAll first).2.feedAll second).2) := by
  induction first generalizing ic with
  | nil => rfl
  | cons byte first ih => rw [List.cons_append, feedAll_cons, ih, feedAll_cons, List.append_assoc]

/-- 分け方によらず、つないだ列を 1 度に読んだのと同じである。 -/
theorem feedChunks_eq (ic : ApcInterceptor) (chunks : List (List UInt8)) :
    ic.feedChunks chunks = ic.feedAll chunks.flatten := by
  induction chunks generalizing ic with
  | nil => rfl
  | cons chunk chunks ih =>
      rw [List.flatten_cons, feedAll_append, ← ih]
      rfl

/-- 地の状態。前の APC が残した `buf` と `truncated` は、次の APC の始まりで消える。 -/
def ground (buf : List UInt8) (truncated : Bool) : ApcInterceptor := { state := .ground, buf, truncated }

/-- 本体 `body` を読み終えた状態。 -/
def collected (state : ApcState) (body : List UInt8) : ApcInterceptor :=
  { state, buf := body.take maxApcPayload, truncated := decide (maxApcPayload < body.length) }

theorem feed_collecting (body : List UInt8) {b : UInt8} (hb : b ≠ escByte ∧ b ≠ stByte) :
    (collected .collecting body).feed b = (.consume, collected .collecting (body ++ [b])) := by
  rw [feed, collected]
  dsimp only
  rw [if_neg hb.1, if_neg hb.2, List.length_take]
  by_cases hlt : body.length < maxApcPayload
  · rw [if_pos (by omega), collected, List.take_of_length_le (by omega), List.take_of_length_le (by simp; omega),
      List.length_append, List.length_singleton, decide_eq_false (by omega), decide_eq_false (by omega)]
  · rw [if_neg (by omega), collected, List.take_append_of_le_length (by omega), List.length_append,
      List.length_singleton, decide_eq_true (show maxApcPayload < body.length + 1 by omega)]

theorem feedAll_collecting (before body rest : List UInt8) (hbody : PlainBody body) :
    (collected .collecting before).feedAll (body ++ rest) = (collected .collecting (before ++ body)).feedAll rest := by
  induction body generalizing before with
  | nil => rw [List.nil_append, List.append_nil]
  | cons b body ih =>
      rw [List.cons_append, feedAll_cons, feed_collecting before (hbody b List.mem_cons_self),
        ih _ fun x hx => hbody x (List.mem_cons_of_mem _ hx), List.append_assoc]
      rfl

/-- 導入子の後は、空の本体から集める。 -/
theorem feedAll_introducer (buf : List UInt8) (truncated : Bool) (rest : List UInt8) :
    (ground buf truncated).feedAll (escByte :: underscore :: rest) = (collected .collecting []).feedAll rest := rfl

theorem finish_collected (state : ApcState) (body : List UInt8) :
    (collected state body).finish = (.apc (limited body), ground [] (decide (maxApcPayload < body.length))) := by
  rw [finish, collected, limited]
  by_cases hle : body.length ≤ maxApcPayload
  · rw [if_pos hle, decide_eq_false (by omega), List.take_of_length_le hle]
    rfl
  · rw [if_neg hle, decide_eq_true (by omega)]
    rfl

theorem feedAll_st (body : List UInt8) {st : List UInt8} (hst : IsSt st) (rest : List UInt8) :
    (collected .collecting body).feedAll (st ++ rest) =
      (.apc (limited body) :: ((ground [] (decide (maxApcPayload < body.length))).feedAll rest).1,
        ((ground [] (decide (maxApcPayload < body.length))).feedAll rest).2) := by
  obtain rfl | rfl := hst
  · have hfeed : (collected .collectingEsc body).feed backslash = (collected .collectingEsc body).finish := rfl
    rw [List.cons_append, feedAll_cons, show (collected .collecting body).feed escByte =
      (.consume, collected .collectingEsc body) from rfl, List.cons_append, feedAll_cons, hfeed, finish_collected]
    rfl
  · have hfeed : (collected .collecting body).feed stByte = (collected .collecting body).finish := rfl
    rw [List.cons_append, feedAll_cons, hfeed, finish_collected]
    rfl

/-- `_` の続かない保留の ESC は、そのまま通る。 -/
theorem feedAll_escSeen (buf : List UInt8) (truncated : Bool) {c : UInt8} (hc : c ≠ underscore) (rest : List UInt8) :
    (ground buf truncated).feedAll (escByte :: c :: rest) =
      (.byte escByte :: ((ground buf truncated).feedAll (c :: rest)).1, ((ground buf truncated).feedAll (c :: rest)).2) := by
  have hfirst : (ground buf truncated).feed escByte = (.consume, { state := .escSeen, buf, truncated }) := rfl
  rw [feedAll_cons, hfirst, feedAll_cons, feedAll_cons (ground buf truncated) c]
  by_cases hesc : c = escByte
  · subst hesc
    rfl
  · have hseen : feed { state := .escSeen, buf, truncated } c =
        (.passTwo escByte c, ground buf truncated) := by
      change feedEscSeen _ c = _
      rw [feedEscSeen, if_neg hc, if_neg hesc]
      rfl
    have hground : (ground buf truncated).feed c = (.pass c, ground buf truncated) := by
      change (if c = escByte then _ else _) = _
      rw [if_neg hesc]
    rw [hseen, hground]
    rfl

/-- 中断した APC の後は、中断した ESC から読み直すのと同じである。 -/
theorem feedAll_aborted (body : List UInt8) {c : UInt8} (hc : c ≠ backslash) (rest : List UInt8) :
    (collected .collecting body).feedAll (escByte :: c :: rest) = (ground [] false).feedAll (escByte :: c :: rest) := by
  have hfeed : (collected .collectingEsc body).feed c =
      feedEscSeen { state := .escSeen, buf := [], truncated := false } c := by
    change (if c = backslash then _ else _) = _
    rw [if_neg hc]
  rw [feedAll_cons, show (collected .collecting body).feed escByte = (.consume, collected .collectingEsc body) from rfl,
    feedAll_cons, hfeed]
  rfl

/-- 地の状態からの走査は、分け方のとおりに出力し、残りの状態で終わる。 -/
theorem feedAll_of_partition {input : List UInt8} {pieces : List Piece} {rest : Rest} (h : Partition input pieces rest)
    (buf : List UInt8) (truncated : Bool) :
    ((ground buf truncated).feedAll input).1 = pieces.filterMap Piece.emission? ∧
      ((ground buf truncated).feedAll input).2.state = rest.state := by
  induction h generalizing buf truncated with
  | clean => exact ⟨rfl, rfl⟩
  | heldEsc => exact ⟨rfl, rfl⟩
  | @unfinished body hbody =>
      have hrun := feedAll_collecting [] body [] hbody
      rw [List.append_nil] at hrun
      rw [feedAll_introducer, hrun]
      exact ⟨rfl, rfl⟩
  | @unfinishedEsc body hbody =>
      rw [feedAll_introducer, feedAll_collecting [] body _ hbody]
      exact ⟨rfl, rfl⟩
  | @passed b input pieces rest hb h ih =>
      have hground : (ground buf truncated).feed b = (.pass b, ground buf truncated) := by
        change (if b = escByte then _ else _) = _
        rw [if_neg hb]
      rw [feedAll_cons, hground]
      exact ⟨congrArg (_ :: ·) (ih buf truncated).1, (ih buf truncated).2⟩
  | passedEsc hc h ih =>
      rw [feedAll_escSeen buf truncated hc]
      exact ⟨congrArg (_ :: ·) (ih buf truncated).1, (ih buf truncated).2⟩
  | @apc body st input pieces rest hbody hst h ih =>
      have hrest := ih [] (decide (maxApcPayload < body.length))
      rw [feedAll_introducer, feedAll_collecting [] body _ hbody, List.nil_append, feedAll_st body hst]
      exact ⟨congrArg (_ :: ·) hrest.1, hrest.2⟩
  | @aborted body c input pieces rest hbody hc h ih =>
      rw [feedAll_introducer, feedAll_collecting [] body _ hbody, feedAll_aborted _ hc]
      exact ih [] false

end ApcInterceptor

end IsekaiTerminal.Emulator
