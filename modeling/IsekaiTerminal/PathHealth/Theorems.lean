import IsekaiTerminal.PathHealth.Lemmas.Tracker

/-!
# ヘルスチェックと `NoViablePath` の性質
-/

namespace IsekaiTerminal.PathHealth

open Lib World

variable {ℓ : Type} [DecidableEq ℓ]

/-- 格下げと復帰は交互に起き、復帰は健全な読み取りの続いた後に、無応答の格下げはちょうど 3 回目以降の無応答で起きる。 -/
structure Hysteretic (lossy : Nat → Nat → Bool) (readings : List PathStats) : Prop where
  alternates : ∃ n, switches lossy readings = alternating n
  recovers : ∀ before stats, before ++ [stats] <+: readings → .recover ∈ emitted lossy before stats →
    2 ≤ trailing lossy Verdict.healthy (before ++ [stats])
  unanswered : ∀ before stats, before ++ [stats] <+: readings →
    ((∃ n, .degradeZeroResponse n ∈ emitted lossy before stats) ↔
      3 ≤ trailing lossy Verdict.zeroResponse (before ++ [stats])) ∧
    ∀ n, .degradeZeroResponse n ∈ emitted lossy before stats →
      (after lossy (before ++ [stats])).degraded = true

theorem hysteretic (lossy : Nat → Nat → Bool) (readings : List PathStats) : Hysteretic lossy readings := by
  refine ⟨?_, fun before stats _ => healthy_of_recover, fun before stats _ => ⟨?_, ?_⟩⟩
  · obtain ⟨n, halt, _⟩ := (tracks_after readings).alternates
    exact ⟨n, halt⟩
  · exact degradeZeroResponse_mem before stats
  · intro n hn
    exact degraded_of_degradeZeroResponse hn

/-- `set(Validated)` と通知の判定が重ならない実行では、どの期間の通知も 1 回である。 -/
theorem notified_of_run {lossy : Nat → Nat → Bool} {as : List (Action ℓ)} {w : World ℓ}
    (h : Run (Guarded (Steps lossy) Separated) .start as w) (readings : List PathStats) :
    Hysteretic lossy readings ∧ Notified w :=
  ⟨hysteretic lossy readings, (inv_of_run h).notified⟩

/-! ## 重なりのある実行 -/

def probe (udpTx udpRx : Nat) : PathStats := ⟨millis 50, udpTx, udpRx, 0, 0⟩

/-- 2 本の path が確立し、path 1 が遅延で格下げされ、path 0 が 3 回続けて無応答になる。 -/
def outageRun : List (Action Nat) :=
  [.spawn 0, .spawn 1, .spawn 2, .event 2 [.set 0 .validated, .set 1 .validated]] ++
    List.replicate 4 (.run 2 false) ++
    [.reading 1 { probe 10 10 with rtt := millis 900 }, .run 1 false, .reading 0 (probe 10 10),
      .reading 0 (probe 20 10), .run 0 false, .reading 0 (probe 30 10), .reading 0 (probe 40 10), .run 0 false]

/-- path 0 の通知の後で path 1 が復帰し、再び 3 回続けて無応答になる実行。 -/
def recoveredRun : List (Action Nat) :=
  outageRun ++ List.replicate 3 (.run 0 false) ++
    [.reading 1 (probe 20 20), .reading 1 (probe 30 30), .run 1 false, .run 1 false, .reading 1 (probe 40 30),
      .run 1 false, .reading 1 (probe 50 30), .reading 1 (probe 60 30)] ++ List.replicate 4 (.run 1 false)

theorem any_recoveredRun : ((World.start.exec (fun _ _ => false) recoveredRun).any fun w =>
    w.completed = [2, 1]) = true := by
  decide +kernel

theorem recovered_isSome : (World.start.exec (fun _ _ => false) recoveredRun).isSome = true := by
  obtain ⟨w, hw, _⟩ := (Option.any_eq_true _ _).mp any_recoveredRun
  exact Option.isSome_iff_exists.mpr ⟨w, hw⟩

theorem notified_recoveredRun :
    Hysteretic (fun _ _ => false) [probe 10 10, probe 20 10] ∧
      Notified ((World.start.exec (fun _ _ => false) recoveredRun).get recovered_isSome) ∧
      ((World.start.exec (fun _ _ => false) recoveredRun).get recovered_isSome).completed = [2, 1] := by
  obtain ⟨hfsm, hnotified⟩ := notified_of_run
    (Run.guarded_of_foldlM (Option.some_get (x := World.start.exec (fun _ _ => false) recoveredRun)
      recovered_isSome).symm) [probe 10 10, probe 20 10]
  refine ⟨hfsm, hnotified, ?_⟩
  obtain ⟨w, hw, hcompleted⟩ := (Option.any_eq_true _ _).mp any_recoveredRun
  rw [Option.get_of_eq_some _ hw]
  exact of_decide_eq_true hcompleted

/-- path 0 の通知の判定と旗の間に path 1 の復帰の始めが入り、次に path 1 が無応答になる実行。 -/
def overlappingRun : List (Action Nat) :=
  outageRun ++
    [.run 0 false, .reading 1 (probe 20 20), .reading 1 (probe 30 30), .run 1 false, .run 0 false, .run 1 false,
      .run 0 false, .reading 1 (probe 40 30), .run 1 false, .reading 1 (probe 50 30), .reading 1 (probe 60 30)] ++
    List.replicate 3 (.run 1 false)

theorem any_overlappingRun : ((World.start.execRoomy (fun _ _ => false) overlappingRun).any fun w =>
    2 ∈ w.completed ∧ w.sent.count 2 = 0 ∧ w.inFlight 2 = 0) = true := by
  decide +kernel

/-- 重なりのある実行では、旗が立ったままになり、次の期間の通知が 1 回も出ない。 -/
theorem exists_run_unreported :
    ∃ w : World Nat, Run (Guarded (Steps fun _ _ => false) fun _ a => roomy a = true) .start overlappingRun w ∧
      2 ∈ w.completed ∧ w.sent.count 2 = 0 ∧ w.inFlight 2 = 0 ∧ ¬ Notified w := by
  obtain ⟨w, hw, hfacts⟩ := (Option.any_eq_true _ _).mp any_overlappingRun
  obtain ⟨hcompleted, hsent, hflight⟩ := of_decide_eq_true hfacts
  refine ⟨w, Run.guarded_of_foldlM hw, hcompleted, hsent, hflight, ?_⟩
  intro hn
  have hone := hn.reported 2 hcompleted
  omega

end IsekaiTerminal.PathHealth
