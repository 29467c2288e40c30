import IsekaiTerminal.Protocol.Attach

/-!
# 候補の順次フォールバック

`isekai-transport` の `attempt.rs`、`generation_coordinator.rs`、`resume.rs` から、
`connect_via_relay_resumable_with_fallback` の走査を定める。

1 回の試行の結果は外から与える。試行の内部（QUIC の接続、HELLO の送受信）は結果の種別だけで表す。
-/

namespace IsekaiTerminal.Transport

open Protocol

variable {ε τ : Type}

/-! ## 失敗の分類 -/

/-- `connect_and_handshake` が失敗した段階。 -/
inductive ConnectAttemptStage
  | quicConnect
  | computeProof
  | openStream
  | helloWrite
  | ackRead
  | activateWrite
  | rejected (reason : AttachRejectReason)

inductive AttemptFailure (ε : Type)
  | retryablePreAttach (source : ε)
  | definitiveRejectNotRetryable (source : ε)
  | ambiguousAfterAttach (source : ε)
  | lostRace (source : ε)
  | staleAttempt (source : ε) (currentGeneration : ConnectionGeneration)
  | mustResume (source : ε)
  | terminal (source : ε)

/-- `From<ConnectAttemptError> for AttemptFailure`。 -/
def AttemptFailure.ofConnectAttemptError (stage : ConnectAttemptStage) (source : ε) : AttemptFailure ε :=
  match stage with
  | .quicConnect | .computeProof | .openStream => .retryablePreAttach source
  | .helloWrite | .ackRead | .activateWrite => .ambiguousAfterAttach source
  | .rejected .target => .definitiveRejectNotRetryable source
  | .rejected .alreadyAttached => .lostRace source
  | .rejected (.staleGeneration currentGeneration) => .staleAttempt source currentGeneration
  | .rejected .attachAlreadyEstablished => .mustResume source
  | .rejected .auth | .rejected .unsupported | .rejected .busyOtherSession => .terminal source

/-! ## 世代 -/

structure RoundContext where
  sessionId : SessionId
  generation : ConnectionGeneration
deriving DecidableEq

inductive AdvanceGenerationError
  | retryBudgetExceeded (advances max : Nat)
  | generationOverflow
deriving DecidableEq

def defaultMaxGenerationAdvances : Nat := 2

structure GenerationCoordinator where
  sessionId : SessionId
  currentGeneration : ConnectionGeneration
  generationAdvances : Nat
  maxGenerationAdvances : Nat

namespace GenerationCoordinator

def withMaxGenerationAdvances (sessionId : SessionId) (maxGenerationAdvances : Nat) : GenerationCoordinator :=
  { sessionId, currentGeneration := 0, generationAdvances := 0, maxGenerationAdvances }

def new (sessionId : SessionId) : GenerationCoordinator :=
  withMaxGenerationAdvances sessionId defaultMaxGenerationAdvances

def currentRound (c : GenerationCoordinator) : RoundContext := ⟨c.sessionId, c.currentGeneration⟩

/-- `ConnectionGeneration::checked_next`。 -/
def checkedNext (g : ConnectionGeneration) : Except AdvanceGenerationError ConnectionGeneration :=
  if g.toNat + 1 < UInt64.size then .ok (g + 1) else .error .generationOverflow

/-- 予算の検査は、桁あふれの検査より先である。 -/
def advanceGeneration (c : GenerationCoordinator) (serverFloor : Option ConnectionGeneration) :
    Except AdvanceGenerationError GenerationCoordinator := do
  if c.generationAdvances ≥ c.maxGenerationAdvances then
    .error (.retryBudgetExceeded c.generationAdvances c.maxGenerationAdvances)
  else
    let fromSelf ← checkedNext c.currentGeneration
    let next ← match serverFloor with
      | some floor => do
        let fromFloor ← checkedNext floor
        pure (max fromSelf fromFloor)
      | none => pure fromSelf
    return { c with currentGeneration := next, generationAdvances := c.generationAdvances + 1 }

end GenerationCoordinator

/-! ## 走査 -/

structure SequentialRelayCandidate (τ : Type) where
  candidateId : String
  target : τ

structure SequentialFailure (ε : Type) where
  candidateId : String
  failure : AttemptFailure ε

inductive SequentialConnectError (ε : Type)
  | noCandidates
  | allCandidatesFailed (failures : List (SequentialFailure ε))
  | stoppedEarly (candidateId : String) (failure : AttemptFailure ε)
  | attachedButControlStreamFailed (candidateId : String) (source : ε)
  | gaveUpAfterGenerationRetries (failures : List (SequentialFailure ε)) (budget : AdvanceGenerationError)

/-- 1 つの候補を試した結果。 -/
inductive AttemptOutcome (ε : Type)
  /-- `create_endpoint` が失敗した。 -/
  | bindFailed (source : ε)
  | handshakeFailed (stage : ConnectAttemptStage) (source : ε)
  /-- ハンドシェイクが成功した。`control` は control stream を開いた結果である。 -/
  | attached (control : Except ε Unit)

def AttemptOutcome.failure? : AttemptOutcome ε → Option (AttemptFailure ε)
  | .bindFailed source => some (.retryablePreAttach source)
  | .handshakeFailed stage source => some (.ofConnectAttemptError stage source)
  | .attached _ => none

/-- 関数の結果。`finishViaResume` は、その引数で `finish_via_resume` に進むことを表す。 -/
inductive FallbackResult (ε τ : Type)
  | attached (target : τ)
  | finishViaResume (resumeTarget : τ) (sessionId : SessionId) (candidateId : String)
  | failed (error : SequentialConnectError ε)

/-- ループの変数。`offset` は内側の `for` の変数であり、次に試す候補を指す。 -/
structure Rounds (ε τ : Type) where
  coordinator : GenerationCoordinator
  startIndex : Nat
  offset : Nat
  failures : List (SequentialFailure ε)
  lastAmbiguousTarget : Option τ

def Rounds.start (coordinator : GenerationCoordinator) : Rounds ε τ :=
  { coordinator, startIndex := 0, offset := 0, failures := [], lastAmbiguousTarget := none }

section

variable (candidates : List (SequentialRelayCandidate τ)) (h : 0 < candidates.length)

namespace Rounds

def idx (r : Rounds ε τ) : Nat := (r.startIndex + r.offset) % candidates.length

def candidate (r : Rounds ε τ) : SequentialRelayCandidate τ :=
  candidates.get ⟨r.idx candidates, Nat.mod_lt _ h⟩

/-- 失敗を記録して次の候補へ進む。候補が尽きれば、この世代の周回は終わる。 -/
def skip (r : Rounds ε τ) (failure : AttemptFailure ε) : Rounds ε τ ⊕ FallbackResult ε τ :=
  let failures := r.failures ++ [⟨(r.candidate candidates h).candidateId, failure⟩]
  if r.offset + 1 < candidates.length then .inl { r with offset := r.offset + 1, failures }
  else .inr (.failed (.allCandidatesFailed failures))

/-- 世代を進め、失敗した候補の次から新しい周回を始める。予算が尽きていれば諦める。 -/
def advance (r : Rounds ε τ) (failure : AttemptFailure ε) (serverFloor : Option ConnectionGeneration) :
    Rounds ε τ ⊕ FallbackResult ε τ :=
  match r.coordinator.advanceGeneration serverFloor with
  | .ok coordinator =>
    .inl { r with coordinator, startIndex := (r.idx candidates + 1) % candidates.length, offset := 0 }
  | .error budget =>
    .inr (.failed (.gaveUpAfterGenerationRetries
      (r.failures ++ [⟨(r.candidate candidates h).candidateId, failure⟩]) budget))

/-- 内側のループの 1 回。 -/
def attempt (r : Rounds ε τ) (outcome : AttemptOutcome ε) : Rounds ε τ ⊕ FallbackResult ε τ :=
  let candidate := r.candidate candidates h
  match outcome with
  | .bindFailed source => r.skip candidates h (.retryablePreAttach source)
  | .handshakeFailed stage source =>
    let failure := AttemptFailure.ofConnectAttemptError stage source
    match failure with
    | .retryablePreAttach _ => r.skip candidates h failure
    | .ambiguousAfterAttach _ =>
      { r with lastAmbiguousTarget := some candidate.target }.advance candidates h failure none
    | .staleAttempt _ currentGeneration => r.advance candidates h failure (some currentGeneration)
    | .mustResume _ =>
      match r.lastAmbiguousTarget with
      | none => .inr (.failed (.stoppedEarly candidate.candidateId failure))
      | some resumeTarget =>
        .inr (.finishViaResume resumeTarget r.coordinator.currentRound.sessionId candidate.candidateId)
    | _ => .inr (.failed (.stoppedEarly candidate.candidateId failure))
  | .attached (.error source) =>
    .inr (.failed (.attachedButControlStreamFailed candidate.candidateId source))
  | .attached (.ok ()) => .inr (.attached candidate.target)

end Rounds

/-- 行われた試行。`connect_and_handshake` へ渡した候補と周回、およびその結果である。 -/
structure Attempt (ε τ : Type) where
  idx : Nat
  candidate : SequentialRelayCandidate τ
  round : RoundContext
  outcome : AttemptOutcome ε

def Rounds.record (r : Rounds ε τ) (outcome : AttemptOutcome ε) : Attempt ε τ :=
  { idx := r.idx candidates, candidate := r.candidate candidates h, round := r.coordinator.currentRound, outcome }

inductive Progress (ε τ : Type)
  | trying (r : Rounds ε τ)
  | finished (result : FallbackResult ε τ)

/-- 試行の結果の列に沿って走査を進め、行われた試行の列と、到達したところを返す。 -/
def drive (r : Rounds ε τ) : List (AttemptOutcome ε) → List (Attempt ε τ) × Progress ε τ
  | [] => ([], .trying r)
  | outcome :: outcomes =>
    match r.attempt candidates h outcome with
    | .inl r' => (r.record candidates h outcome :: (drive r' outcomes).1, (drive r' outcomes).2)
    | .inr result => ([r.record candidates h outcome], .finished result)

end

/-- `connect_via_relay_resumable_with_fallback`。`coordinator` は `GenerationCoordinator.new` である。 -/
def connectViaRelayResumableWithFallback (coordinator : GenerationCoordinator)
    (candidates : List (SequentialRelayCandidate τ)) (outcomes : List (AttemptOutcome ε)) :
    List (Attempt ε τ) × Progress ε τ :=
  if h : 0 < candidates.length then drive candidates h (.start coordinator) outcomes
  else ([], .finished (.failed .noCandidates))

/-! ## 試行の列 -/

def AttemptFailure.mayRetryPreFencing : AttemptFailure ε → Bool
  | .retryablePreAttach _ => true
  | _ => false

def AttemptFailure.isAmbiguous : AttemptFailure ε → Bool
  | .ambiguousAfterAttach _ => true
  | _ => false

/-- `STALE_GENERATION` が報告した、サーバの現在の世代。 -/
def AttemptFailure.serverFloor? : AttemptFailure ε → Option ConnectionGeneration
  | .staleAttempt _ currentGeneration => some currentGeneration
  | _ => none

namespace Attempt

def preAttach (a : Attempt ε τ) : Prop := ∃ f, a.outcome.failure? = some f ∧ f.mayRetryPreFencing = true

def ambiguous (a : Attempt ε τ) : Bool := a.outcome.failure?.any AttemptFailure.isAmbiguous

def serverFloor? (a : Attempt ε τ) : Option ConnectionGeneration := a.outcome.failure?.bind AttemptFailure.serverFloor?

/-- サーバに届いたかもしれない試行。次の試行は新しい世代で行わなければならない。 -/
def unsafeToRepeat (a : Attempt ε τ) : Prop := a.ambiguous = true ∨ a.serverFloor?.isSome = true

/-- 世代 `g` は、試行 `a` の世代と、`a` が報告させた世代のどちらよりも大きい。 -/
def FencedBelow (a : Attempt ε τ) (g : ConnectionGeneration) : Prop :=
  a.round.generation < g ∧ ∀ floor, a.serverFloor? = some floor → floor < g

end Attempt

/-- 最後に結果が曖昧になった候補の宛先。 -/
def lastAmbiguous (trace : List (Attempt ε τ)) : Option τ :=
  (trace.filter Attempt.ambiguous).getLast?.map fun a => a.candidate.target

/-- 試行の列について求められる性質。 -/
structure Safe (candidates : List (SequentialRelayCandidate τ)) (trace : List (Attempt ε τ)) : Prop where
  listed : ∀ a ∈ trace, candidates[a.idx]? = some a.candidate
  fenced : trace.Pairwise fun a b => a.unsafeToRepeat → a.FencedBelow b.round.generation
  steady : trace.IsChain fun a b => a.preAttach → b.round = a.round
  ring : trace.IsChain fun a b => b.idx = (a.idx + 1) % candidates.length
  once : trace.Pairwise fun a b => a.round = b.round → a.idx ≠ b.idx

end IsekaiTerminal.Transport
