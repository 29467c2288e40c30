import IsekaiTerminal.Orchestrator.Lemmas.Preview
import IsekaiTerminal.Orchestrator.Lemmas.Stopped
import IsekaiTerminal.Orchestrator.Lemmas.TransferLoop

/-!
# 古い試行は session を奪わず、要求は 1 回だけ応答される
-/

namespace IsekaiTerminal.Orchestrator

open Protocol Lib Reconnect OrchestratorShared

variable {τ : Type} {p p' : OrchestratorState τ} {a : Action τ} {as : List (Action τ)} {epoch : UInt64}

theorem UndisturbedRun.holds_start (h : UndisturbedRun .start as p) : p.Holds (Current 0) (Fresh 0) :=
  h.fresh ⟨⟨Nat.zero_le _, by simp [OrchestratorState.start, OrchestratorShared.start],
    by simp [OrchestratorState.start, OrchestratorShared.start]⟩, by simp [Pool.pending, OrchestratorState.start]⟩

/-- ループを止めた後に残る試行は、次の epoch より古くない。 -/
theorem StopsLoop.holds (hp : UndisturbedRun .start as p) (hs : StopsLoop p a epoch)
    (ha : Guarded OrchestratorState.Steps Undisturbed p a p') :
    p'.Holds (Current (epoch.toNat + 1)) (Fresh (epoch.toNat + 1)) := by
  have h := UndisturbedRun.holds_start (hp.append (.single ha))
  obtain ⟨hepoch, hnone⟩ := hs.stopped ha.2 ha.1
  have hw : epoch.toNat + 1 < 2 ^ 64 := hs.2.2 ▸ ha.2.2
  refine ⟨⟨?_, h.shared.adapters, h.shared.session⟩, ?_⟩
  · rw [hepoch, toNat_succ hw]
  · intro op hm
    have hf := h.pending op hm
    exact ⟨hf.build, hf.loop, hf.adapter, fun epoch' he => by rw [hnone op hm] at he; cases he⟩

theorem Op.TakesOver.attemptEpoch? {op : Op τ} (h : op.TakesOver epoch) : op.attemptEpoch? = some epoch := by
  cases op with
  | beginReconnectSession | newAdapter | store => subst h; rfl
  | _ => cases h

theorem applyThen_userStop {s s' : OrchestratorShared τ} {e : ReconnectEvent} {ops : List (Op τ)}
    (h : Current 0 s) (hl : s.reconnect.reconnectLoopActive = true)
    (he : e = .cancelReconnect ∨ e = .userDisconnect) (hc : s.applyThen e .default [] = (s', ops)) :
    Stopped s'.publications s' ∧ ∀ op ∈ ops, op.buildTarget = none := by
  obtain ⟨rfl, rfl⟩ := Prod.ext_iff.mp hc
  obtain ⟨hhalts, hphase, habort⟩ := userStop_halts hl he
  refine ⟨⟨?_, ?_, ?_, ⟨[], by simp, by simp⟩⟩, ?_⟩
  · rwa [applyThen_reconnect]
  · rw [applyThen_reconnect]
    exact hhalts.active
  · rw [applyThen_adapters]
    intro generation hm
    exact (h.adapters generation hm).trans_lt ((applyThen_stages s e .default []).aborts habort)
  · intro op hm
    obtain ⟨effect, he', rfl⟩ := ((mem_applyThen s e .default []).mp hm).resolve_right (by simp)
    exact buildTarget_effect hhalts.active he'

theorem StopsLoop.user_stopped (h : p.Holds (Current 0) (Fresh 0)) (hs : StopsLoop p a epoch)
    (hu : a = .call .disconnect ∨ a = .call .cancelReconnect) (ha : Guarded OrchestratorState.Steps Undisturbed p a p') :
    p'.Holds (Stopped p'.shared.publications) (fun _ op => op.buildTarget = none) := by
  have hquiet := ha.2.1 hs.1
  obtain rfl | rfl := hu
  · obtain ⟨ops, hc, hmem⟩ := Pool.step_call ha.1
    obtain ⟨hst, hnew⟩ := applyThen_userStop h.shared hs.2.1 (Or.inr rfl) (Option.some.inj hc)
    exact ⟨hst, fun op hm => ((hmem op).mp hm).elim (hquiet op) (hnew op)⟩
  · obtain ⟨ops, hc, hmem⟩ := Pool.step_call ha.1
    obtain ⟨hst, hnew⟩ := applyThen_userStop h.shared hs.2.1 (Or.inl rfl) (Option.some.inj hc)
    exact ⟨hst, fun op hm => ((hmem op).mp hm).elim (hquiet op) (hnew op)⟩

/-- 主導権の移るときに session を作る途中のスレッドが無ければ、止めたループの試行は session を奪わない。 -/
theorem supersededInert_undisturbed : SupersededInert (@Undisturbed τ) where
  attempts {as p a epoch p' bs p'' i op} hp hs ha hr hnext htakes := by
    have h := UndisturbedRun.fresh hr (hs.holds hp ha)
    have hle := (h.pending op (Pool.mem_pending hnext)).attempt epoch htakes.attemptEpoch?
    exact Nat.not_succ_le_self _ hle
  connected {as p a epoch p' bs p''} hp hs hu ha hr hn := by
    have h := Stopped.run (hr.mono fun _ _ _ h => h.1) hn (hs.user_stopped (UndisturbedRun.holds_start hp) hu ha)
    exact h.shared.published
  session {as p i origin attempt generation prev} hp hnext hprev := by
    have h := UndisturbedRun.holds_start hp
    obtain ⟨last, hlast, hle⟩ := h.shared.session prev hprev
    have hbuild := (h.pending _ (Pool.mem_pending hnext)).build attempt rfl
    obtain rfl := Option.some.inj (hlast.symm.trans hbuild)
    exact hle

/-- 接続が切れ、再接続ループが最初のタイマーを待つまで。 -/
def untilArmed : List (Action Unit) :=
  [.call (.connect () false), .run 0 true, .run 0 true, .run 0 true, .run 0 true, .run 0 true,
    .call (.onConnected 1), .call (.onDisconnected 1 .transportError), .run 2 true, .run 2 true, .run 2 true,
    .run 3 true, .run 3 true, .run 3 true]

/-- タイマーを待つ間の中止は主導権を乱さず、その後に届いた古い通知も接続を公開しない。 -/
theorem supersededInert_undisturbed_armed : ∃ p p' p'' : OrchestratorState Unit,
    UndisturbedRun .start untilArmed p ∧ StopsLoop p (.call .cancelReconnect) 3 ∧
      UndisturbedRun p' [.call (.onConnected 1), .run 3 true] p'' ∧
      ∃ extra, p''.shared.publications = p'.shared.publications ++ extra ∧ ∀ target, .connected target ∉ extra := by
  let step (p : OrchestratorState Unit) (a : Action Unit) := if Undisturbed p a then p.step a else none
  let p := (untilArmed.foldlM step .start).get (by decide)
  let p' := (p.step (.call .cancelReconnect)).get (by decide)
  let p'' := (List.foldlM step p' [.call (.onConnected 1), .run 3 true]).get (by decide)
  have hp : UndisturbedRun .start untilArmed p := Run.guarded_of_foldlM (Option.some_get _).symm
  have ha : Guarded OrchestratorState.Steps Undisturbed p (.call .cancelReconnect) p' :=
    ⟨(Option.some_get _).symm, by decide⟩
  have hr : UndisturbedRun p' [.call (.onConnected 1), .run 3 true] p'' :=
    Run.guarded_of_foldlM (Option.some_get _).symm
  have hstop : StopsLoop p (.call .cancelReconnect) 3 := ⟨by decide, by decide, by decide⟩
  refine ⟨p, p', p'', hp, hstop, hr, ?_⟩
  exact supersededInert_undisturbed.connected hp hstop (Or.inr rfl) ha hr (by simp [Action.Reconnects])

/-- 試行を始めると決めた後に中止しても、その試行は局面を Connecting へ動かす。 -/
theorem not_supersededInert : ¬ SupersededInert fun (_ : OrchestratorState Unit) _ => True := by
  intro h
  have hrun {p p' : OrchestratorState Unit} {as : List (Action Unit)} (hf : as.foldlM OrchestratorState.step p = some p') :
      Run (Guarded OrchestratorState.Steps fun _ _ => True) p as p' :=
    (Run.of_foldlM hf).mono fun _ _ _ hs => ⟨hs, trivial⟩
  let p := ((untilArmed ++ [PoolAction.run 3 true]).foldlM OrchestratorState.step .start).get (by decide)
  let p' := (p.step (.call .cancelReconnect)).get (by decide)
  let p'' := (List.foldlM OrchestratorState.step p' [.run 3 true, .run 3 true]).get (by decide)
  have hp : Run (Guarded OrchestratorState.Steps fun _ _ => True) .start (untilArmed ++ [PoolAction.run 3 true]) p :=
    hrun (Option.some_get _).symm
  have ha : Guarded OrchestratorState.Steps (fun _ _ => True) p (.call .cancelReconnect) p' :=
    ⟨(Option.some_get _).symm, trivial⟩
  have hr : Run (Guarded OrchestratorState.Steps fun _ _ => True) p' [.run 3 true, .run 3 true] p'' :=
    hrun (Option.some_get _).symm
  have hstop : StopsLoop p (.call .cancelReconnect) 3 := ⟨by decide, by decide, by decide⟩
  have hnext : p''.next? 3 = some (.beginReconnectSession (.attempt 3) ⟨(), false, 0⟩) := by decide +kernel
  exact h.attempts hp hstop ha hr hnext rfl

end IsekaiTerminal.Orchestrator

namespace IsekaiTerminal.Orchestrator.Preview

open Lib

/-! ## ファイルプレビューの応答 -/

/-- 取り違えない実行では、どの要求も高々 1 回、渡した session が返すか終わればちょうど 1 回、自分の種別で応答される。 -/
theorem answered_of_run {p : State} {as : List Action} (h : Run (Guarded State.Steps Uncrossed) .start as p) :
    p.Answered :=
  (inv_of_run h).answered

def untilStored : List Action := [.call .connect, .run 0 true, .run 0 true, .run 0 true]

/-- session に一覧の要求を渡す。 -/
def untilGiven : List Action := untilStored ++ [.call (.filePreviewRequest "a" (.ls "/")), .run 1 true]

/-- 要求が結果を得て、その後に session が終わる。 -/
def answeredRun : List Action :=
  untilGiven ++ [.call (.onFilePreviewExecResult 0 "a" [] (some 0)), .run 2 true, .run 2 true, .call (.onDisconnected 0),
    .run 3 true]

theorem any_answeredRun : ((answeredRun.foldlM (fun p a => if Uncrossed p a then p.step a else none) State.start).any
    fun p => p.pending = [] ∧ p.shared.results = [("a", .parsed (.ls "/") (some 0) [])]) = true := by
  decide +kernel

theorem answered_answeredRun : ∃ p, Run (Guarded State.Steps Uncrossed) .start answeredRun p ∧ p.pending = [] ∧
    p.shared.results = [("a", .parsed (.ls "/") (some 0) [])] ∧ p.Answered := by
  obtain ⟨p, hp, hfacts⟩ := (Option.any_eq_true _ _).mp any_answeredRun
  obtain ⟨hq, hresults⟩ := of_decide_eq_true hfacts
  have hrun : Run (Guarded State.Steps Uncrossed) .start answeredRun p := Run.guarded_of_foldlM hp
  exact ⟨p, hrun, hq, hresults, answered_of_run hrun⟩

/-- session が終わって片付いた後、まだ開いているコマンドの列に要求を渡す。 -/
def unansweredRun : List Action :=
  untilStored ++ [.call (.onDisconnected 0), .run 1 true, .call (.filePreviewRequest "a" (.ls "/")), .run 2 true]

/-- 網断の片付けが応答した後に、まだ終わっていない session の結果が届く。 -/
def doubledRun : List Action :=
  untilGiven ++ [.call (.networkLost 1), .run 2 true, .run 2 true, .run 2 true,
    .call (.onFilePreviewExecResult 0 "a" [] (some 0)), .run 3 true, .run 3 true]

theorem any_crossedRuns :
    ((unansweredRun.foldlM State.step State.start).any fun p => p.pending = [] ∧
      p.shared.requests = [("a", .ls "/")] ∧ p.shared.results = [] ∧ p.shared.sessions.all (·.ended) = true) = true ∧
    ((doubledRun.foldlM State.step State.start).any fun p =>
      (p.shared.results.map (·.1)).count "a" = 2) = true := by
  decide +kernel

/-- session が終わったのに応答されない要求と、2 回応答される要求が在る。 -/
theorem exists_run_crossed :
    (∃ p, Run State.Steps .start unansweredRun p ∧ p.pending = [] ∧ ("a", .ls "/") ∈ p.shared.requests ∧
      (∀ session ∈ p.shared.sessions, session.ended = true) ∧ "a" ∉ p.shared.results.map (·.1)) ∧
    ∃ p, Run State.Steps .start doubledRun p ∧ (p.shared.results.map (·.1)).count "a" = 2 := by
  obtain ⟨hunanswered, hdoubled⟩ := any_crossedRuns
  obtain ⟨p, hp, hfacts⟩ := (Option.any_eq_true _ _).mp hunanswered
  obtain ⟨hq, hrequests, hresults, hended⟩ := of_decide_eq_true hfacts
  obtain ⟨p', hp', hcount⟩ := (Option.any_eq_true _ _).mp hdoubled
  exact ⟨⟨p, Run.of_foldlM hp, hq, by simp [hrequests], List.all_eq_true.mp hended, by simp [hresults]⟩,
    p', Run.of_foldlM hp', of_decide_eq_true hcount⟩

end IsekaiTerminal.Orchestrator.Preview

namespace IsekaiTerminal.Orchestrator.Transfer

open Lib

/-! ## trzsz の転送 -/

def first : Key := ⟨0, "1"⟩

end IsekaiTerminal.Orchestrator.Transfer
