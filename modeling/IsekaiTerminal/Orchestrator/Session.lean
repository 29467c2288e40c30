import IsekaiTerminal.Lib.ThreadPool
import IsekaiTerminal.Reconnect.State

/-!
# `SessionOrchestrator` のスレッドと session

`rust-core/src/orchestrator.rs` のうち、再接続と session の差し替えに関わる部分を定める。状態のロックと session の
ロックの臨界区間が 1 つの操作であり、操作の間では他のスレッドがどの順にも進む。公開する理由の文字列は載せない。
-/

namespace IsekaiTerminal.Orchestrator

open Protocol Lib Reconnect

variable {τ : Type}

/-! ## 状態 -/

/-- 接続の設定。`localNetwork` は `classify_disconnect_issue_hint` の判定、`accepted` は何番目に受け付けた手動接続の
設定かを表す履歴変数である。 -/
structure LastConnectAttempt (τ : Type) where
  config : τ
  localNetwork : Bool
  accepted : Nat
deriving DecidableEq

structure ActiveSession (τ : Type) where
  attempt : LastConnectAttempt τ
  generation : Nat
deriving DecidableEq

inductive Publication (τ : Type)
  | connecting
  | connected (target : Option (LastConnectAttempt τ))
  | reconnecting (elapsedSecs timeoutSecs : Nat)
  | disconnected (issueHint : Option ConnectionIssueHint)
  | established (target : Option (LastConnectAttempt τ)) (generation : Nat)
  | lost (generation : Nat)
deriving DecidableEq

/-- `publications` は配信待ちの列に積んだものの全体、`adapters` は session に渡したアダプタの世代である。 -/
structure OrchestratorShared (τ : Type) where
  reconnect : ReconnectState
  publications : List (Publication τ)
  sessionGeneration : Nat
  lastConnectAttempt : Option (LastConnectAttempt τ)
  reconnectPolicy : ReconnectPolicy
  session : Option (ActiveSession τ)
  adapters : List Nat

def OrchestratorShared.start : OrchestratorShared τ :=
  ⟨.start, [], 0, none, default, none, []⟩

structure EffectContext (τ : Type) where
  resolvedAttempt : Option (AttemptRef × LastConnectAttempt τ)
  loopAttempt : Option (LastConnectAttempt τ)
deriving DecidableEq

def EffectContext.default : EffectContext τ := ⟨none, none⟩

inductive Origin
  | manual
  | attempt (epoch : UInt64)
  | foreground
deriving DecidableEq

/-- スレッドが 1 つの臨界区間で行う操作。 -/
inductive Op (τ : Type)
  | effect (ctx : EffectContext τ) (effect : ReconnectEffect)
  | beginReconnectSession (origin : Origin) (attempt : LastConnectAttempt τ)
  | newAdapter (origin : Origin) (attempt : LastConnectAttempt τ)
  | connect (origin : Origin) (attempt : LastConnectAttempt τ) (generation : Nat)
  | store (origin : Origin) (attempt : LastConnectAttempt τ) (generation : Nat)
  | connectFailed (origin : Origin) (generation : Nat)
  | handleUnexpectedDisconnect (generation : Nat) (kind : DisconnectKind)
  | loopStarted (epoch : UInt64) (attempt : LastConnectAttempt τ)
  | waitTimer (epoch : UInt64) (attempt : LastConnectAttempt τ)
deriving DecidableEq

/-! ## 状態のロックの中の処理 -/

namespace OrchestratorShared

/-- 公開は配信待ちの列に積み、試行の中断は世代を進める。 -/
def stagePublication (ctx : EffectContext τ) (s : OrchestratorShared τ) :
    ReconnectEffect → OrchestratorShared τ
  | .publishDisconnected issueHint => { s with publications := s.publications ++ [.disconnected issueHint] }
  | .publishConnected => { s with publications := s.publications ++ [.connected s.lastConnectAttempt] }
  | .publishConnecting => { s with publications := s.publications ++ [.connecting] }
  | .publishReconnecting elapsedSecs timeoutSecs =>
      { s with publications := s.publications ++ [.reconnecting elapsedSecs timeoutSecs] }
  | .publishReconnectTimedOut _ =>
      { s with publications := s.publications ++ [.disconnected
          (if ctx.loopAttempt.any (·.localNetwork) then some .localNetworkPermissionPossiblyDenied else none)] }
  | .edgeEstablished generation =>
      { s with publications := s.publications ++ [.established s.lastConnectAttempt generation] }
  | .edgeLost generation => { s with publications := s.publications ++ [.lost generation] }
  | .abortInFlightAttempt => { s with sessionGeneration := s.sessionGeneration + 1 }
  | .invalidatePathObserver | .wakeReconnectLoop | .startReconnectLoop _ _ | .manualConnectRejected
  | .startAttempt _ _ | .pendingWakeRecorded _ | .armLoopTimer _ _ _ | .loopWokeEarly _ | .loopTicked _ _ _
  | .disconnectSession => s

def stagePublications (s : OrchestratorShared τ) (effects : List ReconnectEffect) (ctx : EffectContext τ) :
    OrchestratorShared τ :=
  effects.foldl (stagePublication ctx) s

def applyReconnect (s : OrchestratorShared τ) (e : ReconnectEvent) (ctx : EffectContext τ) :
    OrchestratorShared τ × List ReconnectEffect :=
  let r := s.reconnect.apply e
  ({ s with reconnect := r.1 }.stagePublications r.2 ctx, r.2)

/-- ロックを外した後に、作用を出た順に解釈する。 -/
def interpret (ctx : EffectContext τ) (effects : List ReconnectEffect) : List (Op τ) := effects.map (.effect ctx)

def applyThen (s : OrchestratorShared τ) (e : ReconnectEvent) (ctx : EffectContext τ) (ops : List (Op τ)) :
    OrchestratorShared τ × List (Op τ) :=
  ((s.applyReconnect e ctx).1, interpret ctx (s.applyReconnect e ctx).2 ++ ops)

def startsLoop : ReconnectEffect → Bool
  | .startReconnectLoop _ _ => true
  | _ => false

def resolveStartLoopAttempt (s : OrchestratorShared τ) (effects : List ReconnectEffect) :
    Option (AttemptRef × LastConnectAttempt τ) :=
  if effects.any startsLoop then
    s.reconnect.lastAttempt.bind fun ref => s.lastConnectAttempt.map fun attempt => (ref, attempt)
  else none

def handleUnexpectedDisconnect (s : OrchestratorShared τ) (generation : Nat) (kind : DisconnectKind) :
    OrchestratorShared τ × List (Op τ) :=
  if generation ≠ s.sessionGeneration then (s, [])
  else
    let r := s.reconnect.apply
      (.attemptDisconnected generation kind (s.lastConnectAttempt.any (·.localNetwork)))
    let s := { s with reconnect := r.1 }
    let ctx := ⟨s.resolveStartLoopAttempt r.2, none⟩
    (s.stagePublications r.2 ctx, interpret ctx r.2)

/-- ループの 1 ステップ。次のタイマーを設定した適用の後だけ、ループは続く。 -/
def runReconnectLoopStep (s : OrchestratorShared τ) (e : ReconnectEvent) (epoch : UInt64)
    (attempt : LastConnectAttempt τ) : OrchestratorShared τ × List (Op τ) :=
  s.applyThen e ⟨none, some attempt⟩
    (if (s.reconnect.apply e).2.any ReconnectEffect.isArm then [.waitTimer epoch attempt] else [])

/-! ## 外からの呼び出し -/

inductive Call (τ : Type)
  | connect (config : τ) (localNetwork : Bool)
  | disconnect
  | cancelReconnect
  | didEnterBackground
  | backgroundBudgetExpired
  | memoryWarning
  | willEnterForeground
  | policyChanged (policy : ReconnectPolicy)
  | networkPathLost (phase : ConnPhase) (generation : Nat)
  | onConnected (generation : Nat)
  | onDisconnected (generation : Nat) (kind : DisconnectKind)

def acceptedCount (s : OrchestratorShared τ) : Nat := s.lastConnectAttempt.elim 0 fun attempt => attempt.accepted + 1

/-- `begin_connect` の臨界区間。受理したら、接続先と参照を同じ臨界区間で書く。 -/
def beginConnect (s : OrchestratorShared τ) (config : τ) (localNetwork : Bool) :
    OrchestratorShared τ × List (Op τ) :=
  let r := s.reconnect.apply (.manualConnectStarted (.nextAfter s.reconnect.lastAttempt))
  if .manualConnectRejected ∈ r.2 then ({ s with reconnect := r.1 }, [])
  else
    let attempt := ⟨config, localNetwork, s.acceptedCount⟩
    ({ s with reconnect := r.1, lastConnectAttempt := some attempt }.stagePublications r.2 .default,
      interpret .default r.2 ++ [.newAdapter .manual attempt])

def setBackground (s : OrchestratorShared τ) (b : BackgroundState) : OrchestratorShared τ :=
  { s with reconnect := { s.reconnect with backgroundState := b } }

/-- 復帰した時点で接続が失われているとみなせば、直前の接続先へ張り直す。 -/
def foregroundAttempt (s : OrchestratorShared τ) : Option (LastConnectAttempt τ) :=
  if s.reconnect.backgroundState = .suspended ∧ s.reconnect.reconnectLoopActive = false ∧
      s.reconnect.phase ≠ .connecting then s.lastConnectAttempt
  else none

/-- 呼び出しの最初の臨界区間と、その続き。callback は、アダプタを渡した session からだけ届く。 -/
def call (s : OrchestratorShared τ) : Call τ → Option (OrchestratorShared τ × List (Op τ))
  | .connect config localNetwork => some (s.beginConnect config localNetwork)
  | .disconnect => some (s.applyThen .userDisconnect .default [])
  | .cancelReconnect => some (s.applyThen .cancelReconnect .default [])
  | .didEnterBackground =>
      some (if s.reconnect.phase = .idle then s else s.setBackground .quiescing, [])
  | .backgroundBudgetExpired | .memoryWarning =>
      some (if s.reconnect.backgroundState = .quiescing then s.setBackground .suspended else s, [])
  | .willEnterForeground =>
      some (s.setBackground .foreground,
        s.foregroundAttempt.toList.map fun attempt => .beginReconnectSession .foreground attempt)
  | .policyChanged policy => some ({ s with reconnectPolicy := policy }, [])
  | .networkPathLost phase generation =>
      some (s, if s.reconnect.phase = phase ∧ s.sessionGeneration = generation then
        [.handleUnexpectedDisconnect generation .networkLost] else [])
  | .onConnected generation =>
      if generation ∈ s.adapters then
        some (if s.sessionGeneration ≠ generation then (s, [])
          else s.applyThen (.attemptConnected generation) .default [])
      else none
  | .onDisconnected generation kind =>
      if generation ∈ s.adapters then some (s.handleUnexpectedDisconnect generation kind) else none

/-! ## 操作の実行 -/

/-- ロックの外での作用の解釈。session の切断と公開の配信は、ここに載せた状態を変えない。 -/
def execEffect (s : OrchestratorShared τ) (ctx : EffectContext τ) :
    ReconnectEffect → OrchestratorShared τ × List (Op τ) × List (List (Op τ))
  | .startReconnectLoop attempt epoch =>
      match ctx.resolvedAttempt.filter (·.1 = attempt) with
      | some resolved => (s, [], [[.loopStarted epoch resolved.2]])
      | none =>
          let r := s.applyThen (.loopStartAborted epoch) .default []
          (r.1, r.2, [])
  | .startAttempt epoch _ =>
      match ctx.loopAttempt with
      | some attempt => (s, [.beginReconnectSession (.attempt epoch) attempt], [])
      | none =>
          let r := s.applyThen (.attemptFailedSync epoch) .default []
          (r.1, r.2, [])
  | _ => (s, [], [])

/-- 同期的な失敗の後始末。手動接続は、まだ現行の世代のときだけ戻す。 -/
def connectFailed (s : OrchestratorShared τ) (origin : Origin) (generation : Nat) :
    OrchestratorShared τ × List (Op τ) :=
  match origin with
  | .manual =>
      if s.sessionGeneration ≠ generation then (s, []) else s.applyThen .manualConnectFailedSync .default []
  | .attempt epoch => s.applyThen (.attemptFailedSync epoch) .default []
  | .foreground => s.applyThen .foregroundReconnectFailedSync .default []

/-- `k` は外から決まる選択である。`connect` では成功したか、`waitTimer` では満了前に起こされたかを表す。 -/
def exec (s : OrchestratorShared τ) (op : Op τ) (k : Bool) :
    OrchestratorShared τ × List (Op τ) × List (List (Op τ)) :=
  match op with
  | .effect ctx effect => s.execEffect ctx effect
  | .beginReconnectSession origin attempt =>
      let r := s.applyThen .reconnectSessionStarting .default [.newAdapter origin attempt]
      (r.1, r.2, [])
  | .newAdapter origin attempt =>
      let generation := s.sessionGeneration + 1
      let r := { s with sessionGeneration := generation }.applyThen (.sessionCreated generation) .default
        [.connect origin attempt generation]
      (r.1, r.2, [])
  | .connect origin attempt generation =>
      ({ s with adapters := generation :: s.adapters },
        [if k then .store origin attempt generation else .connectFailed origin generation], [])
  | .store _ attempt generation => ({ s with session := some ⟨attempt, generation⟩ }, [], [])
  | .connectFailed origin generation =>
      let r := s.connectFailed origin generation
      (r.1, r.2, [])
  | .handleUnexpectedDisconnect generation kind =>
      let r := s.handleUnexpectedDisconnect generation kind
      (r.1, r.2, [])
  | .loopStarted epoch attempt =>
      let r := s.runReconnectLoopStep (.loopStarted epoch s.reconnectPolicy) epoch attempt
      (r.1, r.2, [])
  | .waitTimer epoch attempt =>
      let r := s.runReconnectLoopStep
        (if k then .reconnectWake epoch s.reconnectPolicy else .reconnectTick epoch s.reconnectPolicy)
        epoch attempt
      (r.1, r.2, [])

end OrchestratorShared

/-! ## 実行 -/

abbrev OrchestratorState (τ : Type) := Pool (OrchestratorShared τ) (Op τ)

abbrev Action (τ : Type) := PoolAction (OrchestratorShared.Call τ) Bool

namespace OrchestratorState

def start : OrchestratorState τ := ⟨.start, []⟩

abbrev step (p : OrchestratorState τ) (a : Action τ) : Option (OrchestratorState τ) :=
  Pool.step OrchestratorShared.call OrchestratorShared.exec p a

abbrev Steps (p : OrchestratorState τ) (a : Action τ) (p' : OrchestratorState τ) : Prop := p.step a = some p'

end OrchestratorState

/-! ## 操作の分類 -/

/-- session を作る途中の操作なら、その接続先。 -/
def Op.buildTarget : Op τ → Option (LastConnectAttempt τ)
  | .effect ctx (.startAttempt _ _) => ctx.loopAttempt
  | .beginReconnectSession _ attempt | .newAdapter _ attempt => some attempt
  | .connect _ attempt _ | .store _ attempt _ => some attempt
  | _ => none

def Origin.epoch? : Origin → Option UInt64
  | .attempt epoch => some epoch
  | .manual | .foreground => none

/-- 再接続ループの試行として session を作る途中の操作なら、その epoch。 -/
def Op.attemptEpoch? : Op τ → Option UInt64
  | .effect ctx (.startAttempt epoch _) => ctx.loopAttempt.map fun _ => epoch
  | .beginReconnectSession origin _ | .newAdapter origin _ => origin.epoch?
  | .connect origin _ _ | .store origin _ _ => origin.epoch?
  | _ => none

/-- epoch `epoch` のループの試行が、局面を Connecting へ動かすか、世代を進めるか、session を格納する。 -/
def Op.TakesOver (epoch : UInt64) : Op τ → Prop
  | .beginReconnectSession origin _ | .newAdapter origin _ | .store origin _ _ => origin = .attempt epoch
  | _ => False

def Action.Reconnects : Action τ → Prop
  | .call (.connect _ _) | .call .willEnterForeground => True
  | _ => False

/-! ## 主導権の移動 -/

def Op.timesOut (s : OrchestratorShared τ) : Op τ → Bool
  | .waitTimer epoch _ =>
      (s.reconnect.apply (.reconnectTick epoch s.reconnectPolicy)).2.any ReconnectEffect.isTimedOut
  | _ => false

/-- 手動接続を受理するか、動作中のループを中止、ユーザーの切断、時間切れで止める。 -/
def Interrupting (p : OrchestratorState τ) : Action τ → Prop
  | .call (.connect _ _) => p.shared.reconnect.phase ≠ .connecting
  | .call .disconnect | .call .cancelReconnect => p.shared.reconnect.reconnectLoopActive = true
  | .call _ => False
  | .run i k => k = false ∧ (p.next? i).any (Op.timesOut p.shared) = true

instance (p : OrchestratorState τ) : DecidablePred (Interrupting p)
  | .call (.connect _ _) => inferInstanceAs (Decidable (_ ≠ _))
  | .call .disconnect | .call .cancelReconnect => inferInstanceAs (Decidable (_ = true))
  | .call .didEnterBackground | .call .backgroundBudgetExpired | .call .memoryWarning
  | .call .willEnterForeground | .call (.policyChanged _) | .call (.networkPathLost _ _)
  | .call (.onConnected _) | .call (.onDisconnected _ _) => inferInstanceAs (Decidable False)
  | .run _ _ => inferInstanceAs (Decidable (_ ∧ _))

def StopsLoop (p : OrchestratorState τ) (a : Action τ) (epoch : UInt64) : Prop :=
  Interrupting p a ∧ p.shared.reconnect.reconnectLoopActive = true ∧ p.shared.reconnect.reconnectEpoch = epoch

/-- 主導権が移るとき、どのスレッドも session を作る途中でない。epoch は折り返さない。 -/
def Undisturbed (p : OrchestratorState τ) (a : Action τ) : Prop :=
  (Interrupting p a → ∀ op ∈ p.pending, op.buildTarget = none) ∧
    p.shared.reconnect.reconnectEpoch.toNat + 1 < 2 ^ 64

instance (p : OrchestratorState τ) : DecidablePred (Undisturbed p) := fun _ => inferInstanceAs (Decidable (_ ∧ _))

/-- どの遷移も主導権を乱さない実行。 -/
abbrev UndisturbedRun (p : OrchestratorState τ) (as : List (Action τ)) (p' : OrchestratorState τ) : Prop :=
  Run (Guarded OrchestratorState.Steps Undisturbed) p as p'

/-- 条件 `C` を満たす実行では、止めたループの試行は session を奪わない。 -/
structure SupersededInert (C : OrchestratorState τ → Action τ → Prop) : Prop where
  /-- ループを止めた後、そのループの試行は局面も世代も session も動かさない。 -/
  attempts : ∀ {as p a epoch p' bs p'' i op}, Run (Guarded OrchestratorState.Steps C) .start as p →
    StopsLoop p a epoch → Guarded OrchestratorState.Steps C p a p' → Run (Guarded OrchestratorState.Steps C) p' bs p'' →
    p''.next? i = some op → ¬ op.TakesOver epoch
  /-- 切断か中止がループを止めた後、手動接続も前面への復帰も無ければ、接続は公開されない。 -/
  connected : ∀ {as p a epoch p' bs p''}, Run (Guarded OrchestratorState.Steps C) .start as p →
    StopsLoop p a epoch → a = .call .disconnect ∨ a = .call .cancelReconnect →
    Guarded OrchestratorState.Steps C p a p' → Run (Guarded OrchestratorState.Steps C) p' bs p'' →
    (∀ b ∈ bs, ¬ b.Reconnects) →
    ∃ extra, p''.shared.publications = p'.shared.publications ++ extra ∧ ∀ target, .connected target ∉ extra
  /-- 格納する session の接続先は、それが置き換える session の接続先より古くない。 -/
  session : ∀ {as p i origin attempt generation prev}, Run (Guarded OrchestratorState.Steps C) .start as p →
    p.next? i = some (.store origin attempt generation) → p.shared.session = some prev →
    prev.attempt.accepted ≤ attempt.accepted

end IsekaiTerminal.Orchestrator
