import IsekaiTerminal.Lib.Transition
import IsekaiTerminal.Resume.Planner

/-!
# 再接続の履歴

reducer の内部の状態を見ずに、届いたイベントと出たコマンドだけから定まる値を定める。
判断の規則は、reducer の状態ではなくこの履歴について述べる。
-/

namespace IsekaiTerminal.Resume

open Protocol Lib

/-! ## イベントとコマンドの分類 -/

def ResumeEvent.token? : ResumeEvent → Option ResumeToken
  | .backoffElapsed token _ _ => some token
  | .attemptOk token _ => some token
  | .attemptFailed token _ _ _ => some token
  | .disconnected _ _ _ | .tick _ => none

def ResumeEvent.now : ResumeEvent → Millis
  | .disconnected now _ _ => now
  | .backoffElapsed _ now _ => now
  | .attemptOk _ now => now
  | .attemptFailed _ now _ _ => now
  | .tick now => now

def ResumeCmd.token? : ResumeCmd → Option ResumeToken
  | .backoff token _ => some token
  | .dial token _ => some token
  | _ => none

def ResumeEvent.Answers : ResumeEvent → ResumeCmd → Prop
  | .backoffElapsed token _ _, .backoff token' _ => token = token'
  | .attemptOk token _, .dial token' _ => token = token'
  | .attemptFailed token _ _ _, .dial token' _ => token = token'
  | _, _ => False

/-- 次の待ち、再開、断念のいずれかを告げるコマンド。 -/
def ResumeCmd.isOutcome : ResumeCmd → Bool
  | .backoff _ _ | .dial _ _ | .resumed _ _ _ | .giveUp _ _ _ _ => true
  | .showReconnecting _ _ | .switchedToCrossFamily _ | .reportAttemptFailure _ => false

/-- コマンドが告げる結末と、適用の後の局面が合っている。 -/
def ResumeCmd.EndsIn : ResumeCmd → Phase → Prop
  | .backoff _ _, .recovering _ => True
  | .dial _ _, .recovering _ => True
  | .resumed _ _ _, .connected => True
  | .giveUp _ _ _ _, .gaveUp => True
  | _, _ => False

def ResumeCmd.isSwitch : ResumeCmd → Bool
  | .switchedToCrossFamily _ => true
  | _ => false

def ResumeCmd.isRelayDial : ResumeCmd → Bool
  | .dial _ .crossFamily => true
  | _ => false

def ResumeCmd.isRelayResume : ResumeCmd → Bool
  | .resumed .crossFamily _ _ => true
  | _ => false

def GivesUp (cmds : List ResumeCmd) (reason : GiveUpReason) : Prop :=
  ∃ resumeWindow notifyOs continuityLost, .giveUp reason resumeWindow notifyOs continuityLost ∈ cmds

def lastAwaited (cmds : List ResumeCmd) : Option ResumeCmd :=
  (cmds.filter fun c => c.token?.isSome).getLast?

/-! ## コマンドから見た局面 -/

inductive Status
  | connected
  | awaiting (awaiting : Awaiting)
  | gaveUp
deriving DecidableEq

def Status.after (status : Status) : ResumeCmd → Status
  | .backoff token _ => .awaiting (.backoff token)
  | .dial token path => .awaiting (.dial token path)
  | .resumed _ _ _ => .connected
  | .giveUp _ _ _ _ => .gaveUp
  | .showReconnecting _ _ | .switchedToCrossFamily _ | .reportAttemptFailure _ => status

/-- いま待っている `Dial` の token が `token` なら、その経路。 -/
def Status.liveDial (status : Status) (token : ResumeToken) : Option DialPath :=
  match status with
  | .awaiting (.dial token' path) => if token' = token then some path else none
  | _ => none

/-- イベントが応答した `Dial` の経路。 -/
def Status.answeredDial (status : Status) : ResumeEvent → Option DialPath
  | .attemptOk token _ => status.liveDial token
  | .attemptFailed token _ _ _ => status.liveDial token
  | .disconnected _ _ _ | .backoffElapsed _ _ _ | .tick _ => none

/-! ## 履歴変数 -/

/-- `unknown` は連続した UnknownSession の数、`primaryFailures` はこの切断で元の経路への `Dial` が
UnknownSession または Other で失敗した数、`crossSucceeded` は cross-family の経路で再開したことがあるかを表す。 -/
structure Observed where
  status : Status
  disconnectedAt : Millis
  window : Duration
  unknown : Nat
  primaryFailures : Nat
  crossSucceeded : Bool

/-- 切断の始めの窓。cross-family の経路で再開した後は、client 側の上限を掛けない。 -/
def startWindow (cfg : ResumePlannerConfig) (crossSucceeded : Bool) : Duration :=
  match cfg.maxResumeWindow, crossSucceeded with
  | some max, false => min (resumeWindowFor cfg.effectiveResumeGraceSecs) max
  | _, _ => resumeWindowFor cfg.effectiveResumeGraceSecs

/-- 切断から `elapsed` だけ経ったときに経路を切り替えた後の窓。 -/
def switchWindow (cfg : ResumePlannerConfig) (elapsed : Duration) : Duration :=
  min (resumeWindowFor cfg.effectiveResumeGraceSecs)
    (max (elapsed + crossFamilySwitchDeadline) unknownSessionMinElapsedFloor)

namespace Observed

def start : Observed := ⟨.connected, 0, 0, 0, 0, false⟩

def begins (o : Observed) : ResumeEvent → Bool
  | .disconnected _ _ _ => decide (o.status = .connected)
  | _ => false

def disconnectedAtAfter (o : Observed) (e : ResumeEvent) : Millis :=
  if o.begins e then e.now else o.disconnectedAt

def windowAfter (cfg : ResumePlannerConfig) (o : Observed) (e : ResumeEvent) (cmds : List ResumeCmd) :
    Duration :=
  if cmds.any ResumeCmd.isSwitch then switchWindow cfg (e.now.saturatingSub (o.disconnectedAtAfter e))
  else if o.begins e then startWindow cfg o.crossSucceeded
  else o.window

/-- warm standby の `Dial` の結果は数えない。 -/
def unknownAfter (o : Observed) (e : ResumeEvent) : Nat :=
  match o.status.answeredDial e, e with
  | none, _ => o.unknown
  | some .warmStandby, _ => o.unknown
  | some _, .attemptFailed _ _ .unknownSession _ => o.unknown + 1
  | some _, .attemptFailed _ _ .unrecoverable _ => o.unknown
  | some _, _ => 0

def primaryFailuresAfter (o : Observed) (e : ResumeEvent) : Nat :=
  if o.begins e then 0
  else
    match o.status.answeredDial e, e with
    | some .primary, .attemptFailed _ _ .unknownSession _ => o.primaryFailures + 1
    | some .primary, .attemptFailed _ _ .other _ => o.primaryFailures + 1
    | _, _ => o.primaryFailures

def next (cfg : ResumePlannerConfig) (o : Observed) (e : ResumeEvent) (cmds : List ResumeCmd) : Observed where
  status := cmds.foldl Status.after o.status
  disconnectedAt := o.disconnectedAtAfter e
  window := o.windowAfter cfg e cmds
  unknown := o.unknownAfter e
  primaryFailures := o.primaryFailuresAfter e
  crossSucceeded := o.crossSucceeded || cmds.any ResumeCmd.isRelayResume

def elapsed (o : Observed) (now : Millis) : Duration := now.saturatingSub o.disconnectedAt

def deadline (o : Observed) : Millis := millisAfter o.disconnectedAt o.window

/-- UnknownSession による断念の条件。`o` は、この失敗も数えた履歴である。 -/
def SessionGone (o : Observed) (kind : AttemptFailure) (now : Millis) : Prop :=
  kind = .unknownSession ∧ unknownSessionConfirmThreshold ≤ o.unknown ∧
    unknownSessionMinElapsedFloor ≤ o.elapsed now

/-- イベントの処理がループの先頭に達する。 -/
def ReachesLoopTop (cfg : ResumePlannerConfig) (o : Observed) (e : ResumeEvent) : Prop :=
  (o.begins e = true ∧ cfg.hasWarmStandby = false) ∨
    ∃ token now kind jitterSeed path, e = .attemptFailed token now kind jitterSeed ∧
      o.status.liveDial token = some path ∧
      (path = .warmStandby ∨
        (kind ≠ .unrecoverable ∧ ¬ SessionGone { o with unknown := o.unknownAfter e } kind now))

/-- 履歴 `o` でイベント `e` を受け、`o'` になるときに諦める理由。 -/
def Verdict (cfg : ResumePlannerConfig) (o : Observed) (e : ResumeEvent) (o' : Observed) : GiveUpReason → Prop
  | .sessionGone => ∃ token now kind jitterSeed path, e = .attemptFailed token now kind jitterSeed ∧
      o.status.liveDial token = some path ∧ path ≠ .warmStandby ∧ o'.SessionGone kind now
  | .sessionUnrecoverable => ∃ token now jitterSeed path, e = .attemptFailed token now .unrecoverable jitterSeed ∧
      o.status.liveDial token = some path ∧ path ≠ .warmStandby
  | .deadlineExceeded exceededBy => o.ReachesLoopTop cfg e ∧ o'.deadline ≤ e.now ∧
      exceededBy = e.now.saturatingSub o'.deadline

end Observed

/-! ## relay の使い方の監視 -/

/-- cross-family へ切り替えたか、そこへ `Dial` したか。 -/
structure RelayWatch where
  switched : Bool
  dialed : Bool

/-- 切り替えは 1 度だけ、cross-family への `Dial` は切り替えた後だけ、元の経路への `Dial` は切り替える前だけ、
`continuity_lost` を伴う断念は cross-family へ `Dial` した後だけ許す。 -/
def RelayWatch.allows (w : RelayWatch) : ResumeCmd → Bool
  | .switchedToCrossFamily _ => !w.switched
  | .dial _ .crossFamily => w.switched
  | .dial _ .primary => !w.switched
  | .giveUp _ _ _ (some _) => w.dialed
  | _ => true

def RelayWatch.step (w : RelayWatch) (c : ResumeCmd) : Option RelayWatch :=
  if w.allows c then some ⟨w.switched || c.isSwitch, w.dialed || c.isRelayDial⟩ else none

/-! ## 実行 -/

variable (nextDelay : Nat → UInt64 → Duration) (cfg : ResumePlannerConfig)

abbrev after (es : List ResumeEvent) : ResumePlanner :=
  Reducer.run (ResumePlanner.apply nextDelay) (.new cfg) es

abbrev commands (es : List ResumeEvent) : List ResumeCmd :=
  Reducer.outputs (ResumePlanner.apply nextDelay) (.new cfg) es

abbrev observed (es : List ResumeEvent) : Observed :=
  Reducer.watch (ResumePlanner.apply nextDelay) (Observed.next cfg) (.new cfg) .start es

/-- token が生きている。それを運ぶイベントの中に、状態を変えるか何かを出すものがある。 -/
def Live (p : ResumePlanner) (token : ResumeToken) : Prop :=
  ∃ e : ResumeEvent, e.token? = some token ∧ p.apply nextDelay e ≠ (p, [])

/-! ## 1 回の返事 -/

def tokens (cmds : List ResumeCmd) : List ResumeToken := cmds.filterMap ResumeCmd.token?

/-- 最後のコマンドだけが結末を告げ、それが適用の後の局面と合う。 -/
def Concludes (r : ResumePlanner × List ResumeCmd) : Prop :=
  ∃ init last, r.2 = init ++ [last] ∧ last.isOutcome = true ∧ last.EndsIn r.1.phase ∧
    ∀ c ∈ init, c.isOutcome = false

/-- バックオフは期限より前に始まり、期限を越えない。 -/
def WaitsWithin (r : ResumePlanner × List ResumeCmd) (now : Millis) : Prop :=
  ∀ token after, .backoff token after ∈ r.2 → ∃ ep, r.1.phase = .recovering ep ∧ now < ep.deadline ∧
    Duration.fromMillis now + after ≤ Duration.fromMillis ep.deadline

end IsekaiTerminal.Resume
