import IsekaiTerminal.Lib.Table

/-!
# 候補のプール

`isekai-transport` の `candidate_pool.rs` の `CandidatePool` と、それが使う `candidate.rs` の型を定める。
`HashMap` は鍵と記録の組の列で表し、時刻は自然数で表す。1 回の呼び出しの `i` 番目の時計の読みを `clock i` とする。
-/

namespace IsekaiTerminal.Transport

/-! ## 候補 -/

structure CertificatePinSha256 where
  bytes : List UInt8
  length_eq : bytes.length = 32
deriving DecidableEq

structure NormalizedServerName where
  name : List Char
deriving DecidableEq

inductive SocketAddr
  | v4 (ip : BitVec 32) (port : UInt16)
  | v6 (ip : BitVec 128) (port : UInt16) (flowinfo scopeId : UInt32)
deriving DecidableEq

inductive CandidateKey
  | stunP2p (certPin : CertificatePinSha256) (peerAddr stunServer : SocketAddr) (serverName : NormalizedServerName)
  | relay (certPin : CertificatePinSha256) (helperAddr : SocketAddr) (serverName : NormalizedServerName)
deriving DecidableEq

inductive CandidateRoute
  | stunP2p (certPin : CertificatePinSha256) (peerAddr stunServer : SocketAddr) (serverName : NormalizedServerName)
  | relay (certPin : CertificatePinSha256) (helperAddr : SocketAddr) (serverName : NormalizedServerName)
deriving DecidableEq

def CandidateRoute.key : CandidateRoute → CandidateKey
  | .stunP2p certPin peerAddr stunServer serverName => .stunP2p certPin peerAddr stunServer serverName
  | .relay certPin helperAddr serverName => .relay certPin helperAddr serverName

inductive CandidateOriginKind
  | legacyIntent
  | configRelay
  | configStun
deriving DecidableEq

def CandidateOriginKind.index : CandidateOriginKind → Nat
  | .legacyIntent => 0
  | .configRelay => 1
  | .configStun => 2

theorem CandidateOriginKind.index_injective : Function.Injective CandidateOriginKind.index := by
  intro a b h
  cases a <;> cases b <;> first | rfl | cases h

structure CandidateOrigin where
  source : CandidateOriginKind
  providerId : List Char
deriving DecidableEq

/-- 導出された順序は、種別の順、次いで文字列の順である。 -/
def CandidateOrigin.rankOf (o : CandidateOrigin) : Nat ×ₗ List Char := toLex (o.source.index, o.providerId)

theorem CandidateOrigin.rankOf_injective : Function.Injective CandidateOrigin.rankOf := by
  rintro ⟨source, providerId⟩ ⟨source', providerId'⟩ h
  obtain ⟨hsource, rfl⟩ := Prod.mk.inj (toLex.injective h)
  obtain rfl : source = source' := CandidateOriginKind.index_injective hsource
  rfl

instance : LinearOrder CandidateOrigin := LinearOrder.lift' CandidateOrigin.rankOf CandidateOrigin.rankOf_injective

structure CandidatePriority where
  rank : Nat
deriving DecidableEq

inductive CandidateValidity
  | static
  | lease (ttl : Nat)
deriving DecidableEq

def CandidateValidity.merge : CandidateValidity → CandidateValidity → CandidateValidity
  | .lease a, .lease b => .lease (max a b)
  | _, _ => .static

structure CandidateDraft where
  route : CandidateRoute
  origin : CandidateOrigin
  priority : CandidatePriority
  validity : CandidateValidity
deriving DecidableEq

def CandidateDraft.key (d : CandidateDraft) : CandidateKey := d.route.key

structure CandidateDraftBatch where
  generation : Nat
  candidates : List CandidateDraft

structure Candidate where
  id : Nat
  route : CandidateRoute
  origins : List CandidateOrigin
  priority : CandidatePriority
  validity : CandidateValidity
deriving DecidableEq

structure CandidateSnapshot where
  generation : Nat
  candidates : List Candidate
deriving DecidableEq

structure StaleGeneration where
  current : Nat
  attempted : Nat
deriving DecidableEq

/-! ## プール -/

structure CandidateRecord where
  candidate : Candidate
  generation : Nat
  observedAt : Nat
  expiresAt : Option Nat
deriving DecidableEq

structure CandidatePool where
  nextId : Nat
  currentGeneration : Option Nat
  entries : List (CandidateKey × CandidateRecord)
deriving DecidableEq

def expiresAtFor (observedAt : Nat) : CandidateValidity → Option Nat
  | .static => none
  | .lease ttl => some (observedAt + ttl)

def betterPriority (a b : CandidatePriority) : CandidatePriority := if a.rank ≤ b.rank then a else b

/-- `Vec::dedup`。隣り合う等しい要素を 1 つにする。 -/
def dedupAdjacent : List CandidateOrigin → List CandidateOrigin
  | [] => []
  | [a] => [a]
  | a :: b :: rest => if a = b then dedupAdjacent (b :: rest) else a :: dedupAdjacent (b :: rest)

def mergeOrigin (origins : List CandidateOrigin) (origin : CandidateOrigin) : List CandidateOrigin :=
  dedupAdjacent ((if origin ∈ origins then origins else origins ++ [origin]).insertionSort (· ≤ ·))

namespace CandidatePool

def new : CandidatePool := { nextId := 0, currentGeneration := none, entries := [] }

/-- `entries.get(key)`。 -/
def get? (p : CandidatePool) (key : CandidateKey) : Option CandidateRecord :=
  Lib.assoc? p.entries key

def mergeDraft (now generation : Nat) (existing : CandidateRecord) (draft : CandidateDraft) : CandidateRecord :=
  let validity := existing.candidate.validity.merge draft.validity
  { candidate :=
      { existing.candidate with
        origins := mergeOrigin existing.candidate.origins draft.origin
        priority := betterPriority existing.candidate.priority draft.priority
        validity }
    generation
    observedAt := now
    expiresAt := expiresAtFor now validity }

def freshRecord (id now generation : Nat) (draft : CandidateDraft) : CandidateRecord :=
  { candidate :=
      { id, route := draft.route, origins := [draft.origin], priority := draft.priority, validity := draft.validity }
    generation
    observedAt := now
    expiresAt := expiresAtFor now draft.validity }

def insertDraft (now generation : Nat) (p : CandidatePool) (draft : CandidateDraft) : CandidatePool :=
  match p.get? draft.key with
  | some existing =>
      { p with
        entries := p.entries.map fun e =>
          if e.1 = draft.key then (e.1, mergeDraft now generation existing draft) else e }
  | none =>
      { p with
        nextId := p.nextId + 1
        entries := p.entries ++ [(draft.key, freshRecord p.nextId now generation draft)] }

/-- `batch.candidates` のループ。`i` 番目の候補を入れるときの時刻は、`clock i` である。 -/
def insertDrafts (clock : Nat → Nat) (generation : Nat) (i : Nat) (p : CandidatePool) : List CandidateDraft → CandidatePool
  | [] => p
  | draft :: rest => insertDrafts clock generation (i + 1) (p.insertDraft (clock i) generation draft) rest

def pruneExpired (now : Nat) (p : CandidatePool) : CandidatePool :=
  { p with entries := p.entries.filter fun e => e.2.expiresAt.all fun expiresAt => now < expiresAt }

def eligibleCandidates (now : Nat) (p : CandidatePool) : CandidateSnapshot × CandidatePool :=
  let p := p.pruneExpired now
  ({ generation := p.currentGeneration.getD 0,
     candidates := (p.entries.map (·.2.candidate)).insertionSort fun a b => a.id ≤ b.id }, p)

def getIfFresh (now id : Nat) (p : CandidatePool) : Option Candidate × CandidatePool :=
  let p := p.pruneExpired now
  ((p.entries.find? fun e => e.2.candidate.id = id).map (·.2.candidate), p)

def retainKeys (keys : List CandidateKey) (p : CandidatePool) : CandidatePool :=
  { p with entries := p.entries.filter fun e => e.1 ∈ keys }

def replaceGeneration (clock : Nat → Nat) (batch : CandidateDraftBatch) (p : CandidatePool) :
    Except StaleGeneration CandidateSnapshot × CandidatePool :=
  match p.currentGeneration with
  | some current => if batch.generation < current then (.error ⟨current, batch.generation⟩, p) else accept
  | none => accept
where
  accept : Except StaleGeneration CandidateSnapshot × CandidatePool :=
    let refreshed := (p.insertDrafts clock batch.generation 0 batch.candidates).retainKeys (batch.candidates.map (·.key))
    let (snapshot, p') := { refreshed with currentGeneration := some batch.generation }.eligibleCandidates
      (clock batch.candidates.length)
    (.ok snapshot, p')

/-! ## 呼び出しの列 -/

inductive Call
  | replaceGeneration (batch : CandidateDraftBatch)
  | eligibleCandidates
  | getIfFresh (id : Nat)
  | pruneExpired

/-- 呼び出しの後のプールと、呼び出し元に返る候補。 -/
def step (clock : Nat → Nat) (p : CandidatePool) : Call → List Candidate × CandidatePool
  | .replaceGeneration batch =>
      let (result, p') := p.replaceGeneration clock batch
      (match result with | .ok snapshot => snapshot.candidates | .error _ => [], p')
  | .eligibleCandidates => let (snapshot, p') := p.eligibleCandidates (clock 0); (snapshot.candidates, p')
  | .getIfFresh id => let (candidate, p') := p.getIfFresh (clock 0) id; (candidate.toList, p')
  | .pruneExpired => ([], p.pruneExpired (clock 0))

/-- 呼び出しの最後の時計の読み。 -/
def Call.endsAt (clock : Nat → Nat) : Call → Nat
  | .replaceGeneration batch => clock batch.candidates.length
  | _ => clock 0

def run (p : CandidatePool) : List (Call × (Nat → Nat)) → CandidatePool
  | [] => p
  | (call, clock) :: rest => run (p.step clock call).2 rest

end CandidatePool

/-! ## 由来の半束 -/

/-- 由来の集合、優先度、有効期間。`⊤` は、期限のない有効期間である。 -/
abbrev Provenance := Finset CandidateOrigin × Natᵒᵈ × WithTop Nat

def CandidateValidity.lifetime : CandidateValidity → WithTop Nat
  | .static => ⊤
  | .lease ttl => (ttl : WithTop Nat)

def CandidateDraft.provenance (d : CandidateDraft) : Provenance :=
  ({d.origin}, OrderDual.toDual d.priority.rank, d.validity.lifetime)

def Candidate.provenance (c : Candidate) : Provenance :=
  (c.origins.toFinset, OrderDual.toDual c.priority.rank, c.validity.lifetime)

/-- 鍵 `k` の候補の組を、順序にも重複にもよらずに合わせたもの。 -/
def joinOf (drafts : List CandidateDraft) (k : CandidateKey) : WithBot Provenance :=
  (drafts.toFinset.filter (·.key = k)).sup fun d => (d.provenance : WithBot Provenance)

namespace CandidatePool

/-- プールがいま保つ、鍵 `k` の組。 -/
def held (p : CandidatePool) (k : CandidateKey) : WithBot Provenance :=
  (p.get? k).elim ⊥ fun r => (r.candidate.provenance : WithBot Provenance)

/-- 組の有効期間。 -/
def lifetimeOf (x : WithBot Provenance) : WithTop Nat := (x.map fun v => v.2.2).unbotD 0

/-- 鍵 `k` の候補の番号。 -/
def idOf? (p : CandidatePool) (k : CandidateKey) : Option Nat := (p.get? k).map (·.candidate.id)

/-- 呼び出しの列のどの時点でも、鍵 `k` が残っている。 -/
def Stays (k : CandidateKey) : CandidatePool → List (Call × (Nat → Nat)) → Prop
  | p, [] => (p.idOf? k).isSome
  | p, (call, clock) :: rest => (p.idOf? k).isSome ∧ Stays k (p.step clock call).2 rest

/-- 期限の来ていない記録。 -/
def Alive (now : Nat) (r : CandidateRecord) : Prop := ∀ expiresAt ∈ r.expiresAt, now < expiresAt

/-- 鍵 `k` に、期限の来た記録が残っていない。 -/
def NoLeftover (p : CandidatePool) (now : Nat) (k : CandidateKey) : Prop := ∀ r, p.get? k = some r → Alive now r

end CandidatePool

end IsekaiTerminal.Transport
