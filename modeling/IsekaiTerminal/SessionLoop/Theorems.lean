import IsekaiTerminal.Emulator.Theorems
import IsekaiTerminal.SessionLoop.Lemmas.Repaint
import IsekaiTerminal.SessionLoop.Lemmas.Loop
import IsekaiTerminal.SessionLoop.Lemmas.Stdin

/-!
# event loop の性質

反復の任意の順序について、同期出力、画面の反映の間引き、trzsz の時間切れ、transport への入力の性質を示す。
-/

namespace IsekaiTerminal.SessionLoop

open Lib Emulator Trzsz Loop

variable {π : Type} {x : Externals π}

/-! ## 実行の例 -/

/-- `CSI ? 2026` の `h` と `l` のほかは、1 バイトの文字として読む。 -/
def parseAscii : List UInt8 → List Event
  | 0x1B :: 0x5B :: 0x3F :: 0x32 :: 0x30 :: 0x32 :: 0x36 :: final :: rest =>
      .csiDispatch [⟨2026, []⟩] [0x3F] (Char.ofNat final.toNat) :: parseAscii rest
  | b :: rest => .print (Char.ofNat b.toNat) :: parseAscii rest
  | [] => []

def plainCodec : Codec :=
  { base64Encode := fun _ => "", base64Decode := fun _ => none, zlibCompress := id, zlibDecompress := some, md5 := id }

def asciiExternals : Externals Unit :=
  { env := asciiEnv, codec := plainCodec, parse := fun _ _ bytes => ((), parseAscii bytes) }

/-- 2 桁 2 行の端末から始める。 -/
def smallStart : Loop Unit := start 2 2 plainTheme ()

/-- 条件を満たす反復だけの実行。 -/
def execWhen (C : Loop Unit → Action → Prop) [∀ l a, Decidable (C l a)] (as : List Action) : Option (Loop Unit) :=
  as.foldlM (fun l a => if C l a then l.step asciiExternals a else none) smallStart

def exec (as : List Action) : Option (Loop Unit) := as.foldlM (fun l a => l.step asciiExternals a) smallStart

def output (s : String) : Action := .event (.stdout (utf8 s))

def beginSync : String := "\x1b[?2026h"

def endSync : String := "\x1b[?2026l"

/-! ## trzsz の時間切れ -/

/-- 通知の残るチャネルの傍らでタイマーの命令を実行しなければ、`on_timeout` は、最後の `Set` の長さが過ぎてから呼ばれる。 -/
theorem timely_of_run {cols rows : Nat} {theme : Theme} {parser : π} {as : List Action} {l : Loop π}
    (h : Run (Guarded (Steps x) (Unqueued x)) (start cols rows theme parser) as l) : l.Timely :=
  (timerInv_of_run h).timely

def downloadTrigger : String := "::TRZSZ:TRANSFER:S:1.1.5:1\n"

/-- 転送の合図の後、受け入れのないまま 120 秒が過ぎる実行。 -/
def expiredRun : List Action := [output downloadTrigger, .elapse (secs 120), .timerTask, .timeout]

theorem any_expiredRun : ((execWhen (Unqueued asciiExternals) expiredRun).any fun l =>
    l.timeouts = [(some (0, secs 120), secs 120)]) = true := by decide +kernel

theorem timely_expiredRun :
    ∃ l : Loop Unit, execWhen (Unqueued asciiExternals) expiredRun = some l ∧ l.Timely ∧
      l.timeouts = [(some (0, secs 120), secs 120)] := by
  obtain ⟨l, hl, htimeouts⟩ := (Option.any_eq_true _ _).mp any_expiredRun
  exact ⟨l, hl, timely_of_run (x := asciiExternals) (Run.guarded_of_foldlM hl), of_decide_eq_true htimeouts⟩

/-- 通知がチャネルに入った後に受け入れた転送を、その通知が中断する実行。 -/
def staleRun : List Action :=
  [output downloadTrigger, .elapse (secs 120), .timerTask, .command (.trzszAcceptDownload (TrzszTransferFsm.transferIdOf 0)),
    .timeout]

theorem any_staleRun : ((exec staleRun).any fun l =>
    l.timeouts = [(some (secs 120, secs 120), secs 120)] ∧ l.fsm.state = .recovering) = true := by decide +kernel

theorem exists_run_stale :
    ∃ l : Loop Unit, Run (Steps asciiExternals) smallStart staleRun l ∧
      l.timeouts = [(some (secs 120, secs 120), secs 120)] ∧ l.fsm.state = .recovering ∧ ¬ l.Timely := by
  obtain ⟨l, hl, hfacts⟩ := (Option.any_eq_true _ _).mp any_staleRun
  obtain ⟨htimeouts, hstate⟩ := of_decide_eq_true hfacts
  refine ⟨l, Run.of_foldlM hl, htimeouts, hstate, ?_⟩
  intro htimely
  obtain ⟨issued, duration, heq, hle⟩ := htimely (some (secs 120, secs 120), secs 120) (by rw [htimeouts]; simp)
  cases heq
  exact absurd hle (by decide)

/-! ## 同期出力 -/

/-- 区間を破る反復が無ければ、反映はどれも区間の外で起き、safety-net が終わらせた区間はどれも 250ms 続いている。 -/
theorem undivided_of_run {cols rows : Nat} {theme : Theme} {parser : π} {as : List Action} {l : Loop π}
    (h : Run (Guarded (Steps x) (Unbroken x)) (start cols rows theme parser) as l) : l.Undivided :=
  (syncArmed_of_run h).undivided

/-- 閉じないまま 250ms が過ぎた区間を、safety-net が終わらせる実行。 -/
def hungRun : List Action :=
  [output (beginSync ++ "a"), .elapse (millis 250), .safetyTask, .safetyTimeout]

theorem any_hungRun : ((execWhen (Unbroken asciiExternals) hungRun).any fun l =>
    l.forced = [(0, millis 250)] ∧ l.emissions.map (·.time) = [millis 250]) = true := by decide +kernel

theorem undivided_hungRun :
    ∃ l : Loop Unit, execWhen (Unbroken asciiExternals) hungRun = some l ∧ l.Undivided ∧
      l.forced = [(0, millis 250)] ∧ l.emissions.map (·.time) = [millis 250] := by
  obtain ⟨l, hl, hfacts⟩ := (Option.any_eq_true _ _).mp any_hungRun
  exact ⟨l, hl, undivided_of_run (x := asciiExternals) (Run.guarded_of_foldlM hl), of_decide_eq_true hfacts⟩

/-- 区間の前に動き始めた間引きのタイマーが、区間の中で発火する実行。 -/
def armedBeforeRun : List Action :=
  [output "a", output "b", output (beginSync ++ "c"), .elapse (millis 16), .repaint]

/-- 区間の中の `Resized` が、即座の反映になる実行。 -/
def resizedInsideRun : List Action := [output beginSync, .event (.resized 2 1)]

/-- 1 つのバッチが区間を閉じて開き直した後で、前の区間のタイマーが発火する実行。 -/
def reopenedRun : List Action :=
  [output beginSync, .elapse (millis 200), output (endSync ++ beginSync), .elapse (millis 50), .safetyTask, .safetyTimeout]

theorem any_brokenRuns :
    (exec armedBeforeRun).any (fun l =>
      l.emissions.map (fun e => (e.time, e.active)) = [(millis 16, true), (0, false)]) = true ∧
    (exec resizedInsideRun).any (fun l => l.emissions.map (fun e => (e.time, e.active)) = [(0, true)]) = true ∧
    (exec reopenedRun).any (fun l => l.forced = [(millis 200, millis 250)]) = true := by
  decide +kernel

/-- 3 つの実行は、途中まで描いた画面を反映するか、50ms の区間を終わらせる。 -/
theorem exists_run_halfDrawn :
    (∃ l : Loop Unit, Run (Steps asciiExternals) smallStart armedBeforeRun l ∧
      l.emissions.map (fun e => (e.time, e.active)) = [(millis 16, true), (0, false)]) ∧
    (∃ l : Loop Unit, Run (Steps asciiExternals) smallStart resizedInsideRun l ∧
      l.emissions.map (fun e => (e.time, e.active)) = [(0, true)]) ∧
    ∃ l : Loop Unit, Run (Steps asciiExternals) smallStart reopenedRun l ∧
      l.forced = [(millis 200, millis 250)] ∧ ¬ l.Undivided := by
  obtain ⟨l₁, hl₁, hfacts₁⟩ := (Option.any_eq_true _ _).mp any_brokenRuns.1
  obtain ⟨l₂, hl₂, hfacts₂⟩ := (Option.any_eq_true _ _).mp any_brokenRuns.2.1
  obtain ⟨l₃, hl₃, hfacts₃⟩ := (Option.any_eq_true _ _).mp any_brokenRuns.2.2
  refine ⟨⟨l₁, Run.of_foldlM hl₁, of_decide_eq_true hfacts₁⟩, ⟨l₂, Run.of_foldlM hl₂, of_decide_eq_true hfacts₂⟩,
    l₃, Run.of_foldlM hl₃, of_decide_eq_true hfacts₃, ?_⟩
  intro hundivided
  have hle := hundivided.forced (millis 200, millis 250) (by rw [of_decide_eq_true hfacts₃]; simp)
  exact absurd hle (by decide)

/-! ## 画面の反映の間引き -/

/-- 反映していない変更が残り、区間の外なら、間引きのタイマーは最後の反映から 16ms 以内に満了する。反映は 16ms 以上離れ、
番号は 1 つずつ増える。 -/
structure Presented (t₀ : Terminal) (l : Loop π) : Prop where
  pending : l.syncActive = false → shown l.session.terminal ≠ lastShown t₀ l →
    ∃ d e, l.throttle.armedDeadline = some d ∧ l.emissions.head? = some e ∧ d ≤ e.time + repaintMinInterval
  chain : l.emissions.IsChain Follows

/-- 動いている間引きのタイマーは、満了すれば発火できるまま残るか、発火してその時点の中身を反映している。 -/
def Leads (x : Externals π) (l : Loop π) (d : Nat) (as : List Action) (l' : Loop π) : Prop :=
  (l'.throttle.armedDeadline = some d ∧ l'.emissions = l.emissions ∧ (d ≤ l'.now → ∃ l'', Steps x l' .repaint l'')) ∨
    ∃ bs cs s s', as = bs ++ .repaint :: cs ∧ Run (Steps x) l bs s ∧ s.throttle.armedDeadline = some d ∧
      s.emissions = l.emissions ∧ Steps x s .repaint s' ∧ Fired s s' ∧ Run (Steps x) s' cs l'

/-- ループが間引きのタイマーを残して終わらなければ、どの変更も反映される。 -/
theorem presented_of_run {cols rows : Nat} {theme : Theme} {parser : π} {as : List Action} {l : Loop π}
    (h : Run (Guarded (Steps x) Flushed) (start cols rows theme parser) as l) :
    Presented (.new cols rows theme) l ∧ ∀ d ∈ l.throttle.armedDeadline, ∀ bs l',
      Run (Guarded (Steps x) Flushed) l bs l' → Leads x l d bs l' := by
  have hframed := framed_of_run (.start cols rows theme parser) h
  refine ⟨⟨?_, hframed.chain⟩, ?_⟩
  · intro hactive hdiffers
    cases harmed : l.throttle.armedDeadline with
    | none => exact absurd (hframed.fresh harmed hactive) hdiffers
    | some d =>
        obtain ⟨e, he, rfl⟩ := hframed.armed d harmed
        exact ⟨_, e, rfl, he, le_rfl⟩
  · intro d hd bs l' hrun
    rcases hframed.leads hd hrun with ⟨hd', hemissions⟩ | hfired
    · exact Or.inl ⟨hd', hemissions, (framed_of_run hframed hrun).enabled hd'⟩
    · exact Or.inr hfired

/-- 続けて届いた 2 つの出力の、2 つめが間引きのタイマーを待つ実行。 -/
def typedRun : List Action := [output "a", output "b"]

def repaintRun : List Action := [.elapse (millis 16), .repaint]

theorem any_typedRun : ((execWhen Flushed typedRun).any fun l => l.throttle.armedDeadline = some (millis 16) ∧
    ((repaintRun.foldlM (fun l a => if Flushed l a then l.step asciiExternals a else none) l).any fun l' =>
      l'.emissions.map (fun e => (e.time, e.update.updateSeq)) = [(millis 16, 2), (0, 1)]) = true) = true := by
  decide +kernel

theorem presented_typedRun :
    ∃ l l' : Loop Unit, execWhen Flushed typedRun = some l ∧ Presented (.new 2 2 plainTheme) l ∧
      l.throttle.armedDeadline = some (millis 16) ∧ Leads asciiExternals l (millis 16) repaintRun l' ∧
      l'.emissions.map (fun e => (e.time, e.update.updateSeq)) = [(millis 16, 2), (0, 1)] := by
  obtain ⟨l, hl, hfacts⟩ := (Option.any_eq_true _ _).mp any_typedRun
  obtain ⟨hd, hrepaint⟩ := of_decide_eq_true hfacts
  obtain ⟨l', hl', hemissions⟩ := (Option.any_eq_true _ _).mp hrepaint
  obtain ⟨hpresented, hleads⟩ := presented_of_run (x := asciiExternals) (Run.guarded_of_foldlM hl)
  exact ⟨l, l', hl, hpresented, hd, hleads _ hd _ _ (Run.guarded_of_foldlM hl'), of_decide_eq_true hemissions⟩

/-- 間引きのタイマーを待つ間に接続が切れる実行。 -/
def cutRun : List Action := [output "a", output "b", .event .disconnected]

theorem any_cutRun : ((exec cutRun).any fun l =>
    l.running = false ∧ l.throttle.armedDeadline = some (millis 16) ∧ l.syncActive = false ∧
      shown l.session.terminal ≠ lastShown (.new 2 2 plainTheme) l) = true := by decide +kernel

/-- 切断は間引きのタイマーを残してループを抜け、最後の変更はその後も反映されない。 -/
theorem exists_run_swallowed :
    ∃ l : Loop Unit, Run (Steps asciiExternals) smallStart cutRun l ∧ l.throttle.armedDeadline = some (millis 16) ∧
      l.syncActive = false ∧ shown l.session.terminal ≠ lastShown (.new 2 2 plainTheme) l ∧
      ∀ as l', Run (Steps asciiExternals) l as l' → l'.emissions = l.emissions := by
  obtain ⟨l, hl, hfacts⟩ := (Option.any_eq_true _ _).mp any_cutRun
  obtain ⟨hstopped, harmed, hactive, hdiffers⟩ := of_decide_eq_true hfacts
  refine ⟨l, Run.of_foldlM hl, harmed, hactive, hdiffers, ?_⟩
  intro as l' hrun
  exact (stopped_of_run hrun hstopped).2

/-! ## transport への入力 -/

/-- 実行 `as` の後の `s` で、入力が送り手ごとに順番どおりに届き、待ち行列が止まらない。 -/
structure Ordered (capacity : Nat) (as : List StdinAction) (s : StdinState) : Prop where
  /-- event loop の入力は、届いた分、チャネルにある分、待っている分の順に、ちょうど 1 度ずつ並ぶ。 -/
  eventLoop : stdinFrom .eventLoop s.received ++ stdinFrom .eventLoop s.channel.buffer ++ s.waiting =
    as.flatMap StdinAction.effects
  /-- UI の入力のうち、枠が空いていたときの列が、届いた分、チャネルにある分の順に並ぶ。 -/
  ui : stdinFrom .ui s.received ++ stdinFrom .ui s.channel.buffer = (StdinState.start capacity).accepted as
  counted : s.pending.bytes = s.pending.total
  upstream : ∀ permit effects, s.phase = .select permit → s.sessionCmdClosed = false →
    ((s.step (.sessionCmd (some effects))).isSome ↔ s.pending.total < pendingStdinHighWater)
  progress : s.channel.HasSlot → ∀ bytes rest, s.pending.queue = bytes :: rest →
    Inevitable StdinState.Internal (fun s' => s'.commands = s.commands ++ [(.eventLoop, .writeStdin bytes)]) s

/-- transport が終わらないどの実行でも、event loop の入力は失われず、UI の入力は、枠が空いていなかったものだけが失われる。 -/
theorem ordered_of_run {capacity : Nat} {as : List StdinAction} {s : StdinState}
    (h : Run StdinState.Steps (.start capacity) as s) (hclose : .close ∉ as) : Ordered capacity as s := by
  obtain ⟨-, heventLoop, hui, hcounted⟩ := StdinState.delivers_of_run h rfl hclose
  have hbytes : s.pending.bytes = s.pending.total := hcounted rfl
  refine ⟨?_, ?_, hbytes, fun permit effects hphase hopen => ?_, fun hslot bytes rest hqueue => ?_⟩
  · rw [← stdinFrom_append]
    exact heventLoop
  · rw [← stdinFrom_append]
    exact hui
  · rw [← hbytes]
    simp [StdinState.step, hphase, StdinState.arm, StdinState.sessionCmd, hopen, PendingStdin.acceptsMoreUpstream]
  · exact StdinState.inevitable_of_hasSlot hslot hqueue

/-- 容量 1 のチャネルで、event loop が 2 つを送る間に UI が 1 つを送る実行。 -/
def crowdedRun : List StdinAction :=
  [.event [[1], [2]], .advance, .advance, .advance, .advance, .send [3], .advance, .advance, .advance, .receive, .acquire,
    .reserve]

def crowdedState : StdinState :=
  ⟨⟨1, [(.eventLoop, .writeStdin [2])], 0, false⟩, 0, .empty, .flush [], false, [(.eventLoop, .writeStdin [1])]⟩

theorem ordered_crowdedRun : Ordered 1 crowdedRun crowdedState :=
  ordered_of_run (Run.of_foldlM (by decide)) (by decide)

/-- 満杯のチャネルへの `send` は、届きもせず、チャネルにも残らない。 -/
theorem exists_run_dropped :
    ∃ s, Run StdinState.Steps (.start 1) [.send [1], .send [2], .receive] s ∧ stdinFrom .ui s.received = [[1]] ∧
      s.channel.buffer = [] ∧ [StdinAction.send [1], .send [2], .receive].flatMap StdinAction.sends = [[1], [2]] :=
  ⟨⟨Mpsc.new 1, 0, .empty, .select false, false, [(.ui, .writeStdin [1])]⟩, Run.of_foldlM (by decide), rfl, rfl, rfl⟩

end IsekaiTerminal.SessionLoop
