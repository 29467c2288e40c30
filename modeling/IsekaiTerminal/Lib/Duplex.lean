import IsekaiTerminal.Lib.Reader

/-!
# 読みながら書く対話

届いた分ずつ読む列と、書いた列の記録を持つ対話を定める。ある列をちょうど読み、ある列を書いて終わることを、
計算の組み立てに沿って示す規則と、終わった対話が何を読んだかを取り出す規則を持つ。
-/

namespace IsekaiTerminal.Lib

/-- 両方向の流れ。`written` は、これまでに書いた列の全体である。 -/
structure Duplex (β ε : Type) where
  incoming : Source β ε
  written : List β

variable {β ε α γ : Type}

/-- まだ読んでいない列の全体。 -/
def Duplex.pending (d : Duplex β ε) : List β := d.incoming.pending

def DuplexM (β ε α : Type) := Duplex β ε → Except ε α × Duplex β ε

namespace DuplexM

instance : Monad (DuplexM β ε) where
  pure a := fun d => (.ok a, d)
  bind m f := fun d =>
    match m d with
    | (.ok a, d') => f a d'
    | (.error e, d') => (.error e, d')

def throw (e : ε) : DuplexM β ε α := fun d => (.error e, d)

def lift (x : Except ε α) : DuplexM β ε α := fun d => (x, d)

def ofRead (m : ReadM β ε α) : DuplexM β ε α := fun d => ((m d.incoming).1, { d with incoming := (m d.incoming).2 })

def writeAll (bytes : List β) : DuplexM β ε Unit := fun d => (.ok (), { d with written := d.written ++ bytes })

theorem bind_apply (m : DuplexM β ε α) (f : α → DuplexM β ε γ) (d : Duplex β ε) :
    (m >>= f) d = match m d with
      | (.ok a, d') => f a d'
      | (.error e, d') => (.error e, d') := rfl

theorem bind_eq_ok_iff {m : DuplexM β ε α} {f : α → DuplexM β ε γ} {d d' : Duplex β ε} {c : γ} :
    (m >>= f) d = (.ok c, d') ↔ ∃ a mid, m d = (.ok a, mid) ∧ f a mid = (.ok c, d') := by
  rw [bind_apply]
  rcases m d with ⟨_ | a, mid⟩
  · simp
  · simp

/-! ## 決まった対話 -/

/-- `bytes` で始まるどの流れでも、切れ目によらず、`bytes` だけを読み、`out` を書いて、`r` で終わる。 -/
def Conducts (m : DuplexM β ε α) (bytes out : List β) (r : Except ε α) : Prop :=
  ∀ d rest, d.pending = bytes ++ rest → ∃ d', m d = (r, d') ∧ d'.pending = rest ∧ d'.written = d.written ++ out

theorem Conducts.pure (a : α) : Conducts (pure a : DuplexM β ε α) [] [] (.ok a) :=
  fun d _ h => ⟨d, rfl, h, (List.append_nil _).symm⟩

theorem Conducts.lift (x : Except ε α) : Conducts (lift x : DuplexM β ε α) [] [] x :=
  fun d _ h => ⟨d, rfl, h, (List.append_nil _).symm⟩

theorem Conducts.throw (e : ε) : Conducts (throw e : DuplexM β ε α) [] [] (.error e) := Conducts.lift (.error e)

theorem Conducts.writeAll (bytes : List β) : Conducts (writeAll bytes : DuplexM β ε Unit) [] bytes (.ok ()) :=
  fun _ _ h => ⟨_, rfl, h, rfl⟩

theorem Conducts.ofRead {m : ReadM β ε α} {bytes : List β} {a : α} (h : ReadM.Yields m bytes a) :
    Conducts (ofRead m) bytes [] (.ok a) := by
  intro d rest hpending
  obtain ⟨s', hrun, hrest, -⟩ := h d.incoming rest hpending
  exact ⟨{ d with incoming := s' }, by rw [DuplexM.ofRead, hrun], hrest, (List.append_nil _).symm⟩

theorem Conducts.bind {m : DuplexM β ε α} {f : α → DuplexM β ε γ} {first second out out' : List β} {a : α}
    {r : Except ε γ} (hm : Conducts m first out (.ok a)) (hf : Conducts (f a) second out' r) :
    Conducts (m >>= f) (first ++ second) (out ++ out') r := by
  intro d rest h
  obtain ⟨mid, hrun, hpending, hwritten⟩ := hm d (second ++ rest) (h.trans (List.append_assoc _ _ _))
  obtain ⟨d', hrun', hpending', hwritten'⟩ := hf mid rest hpending
  refine ⟨d', ?_, hpending', ?_⟩
  · rw [bind_apply, hrun]
    exact hrun'
  · rw [hwritten', hwritten, List.append_assoc]

/-- 何も書かずに `bytes` を読む計算の後に続ける。 -/
theorem Conducts.read_bind {m : DuplexM β ε α} {f : α → DuplexM β ε γ} {first second out : List β} {a : α}
    {r : Except ε γ} (hm : Conducts m first [] (.ok a)) (hf : Conducts (f a) second out r) :
    Conducts (m >>= f) (first ++ second) out r := hm.bind hf

/-- 1 つだけ読む計算の後に続ける。 -/
theorem Conducts.read_cons {m : DuplexM β ε α} {f : α → DuplexM β ε γ} {b : β} {bytes out : List β} {a : α}
    {r : Except ε γ} (hm : Conducts m [b] [] (.ok a)) (hf : Conducts (f a) bytes out r) :
    Conducts (m >>= f) (b :: bytes) out r := hm.bind hf

/-- 最後の読み取りの後に続ける。 -/
theorem Conducts.last_read_bind {m : DuplexM β ε α} {f : α → DuplexM β ε γ} {bytes out : List β} {a : α}
    {r : Except ε γ} (hm : Conducts m bytes [] (.ok a)) (hf : Conducts (f a) [] out r) :
    Conducts (m >>= f) bytes out r := by
  have hread := hm.read_bind hf
  rwa [List.append_nil] at hread

/-- 何も読まない計算の後に続ける。 -/
theorem Conducts.write_bind {m : DuplexM β ε α} {f : α → DuplexM β ε γ} {bytes out out' : List β} {a : α}
    {r : Except ε γ} (hm : Conducts m [] out (.ok a)) (hf : Conducts (f a) bytes out' r) :
    Conducts (m >>= f) bytes (out ++ out') r := hm.bind hf

/-- 最後に書いて終わる。 -/
theorem Conducts.last_write_bind {m : DuplexM β ε α} {f : α → DuplexM β ε γ} {out : List β} {a : α} {r : Except ε γ}
    (hm : Conducts m [] out (.ok a)) (hf : Conducts (f a) [] [] r) : Conducts (m >>= f) [] out r := by
  have hwrite := hm.write_bind hf
  rwa [List.append_nil] at hwrite

theorem Conducts.bind_error {m : DuplexM β ε α} {bytes out : List β} {e : ε}
    (hm : Conducts m bytes out (.error e)) (f : α → DuplexM β ε γ) : Conducts (m >>= f) bytes out (.error e) := by
  intro d rest h
  obtain ⟨d', hrun, hpending, hwritten⟩ := hm d rest h
  exact ⟨d', by rw [bind_apply, hrun], hpending, hwritten⟩

/-! ## 終わった対話 -/

/-- 値を返して終わった対話は、`P` を満たす列を読み、`P` を満たす列を書いた。 -/
def Achieves (m : DuplexM β ε α) (P : List β → List β → α → Prop) : Prop :=
  ∀ d a d', m d = (.ok a, d') → ∃ bytes out, P bytes out a ∧ d.pending = bytes ++ d'.pending ∧ d'.written = d.written ++ out

variable {P : List β → List β → α → Prop}

theorem Achieves.mono {Q : List β → List β → α → Prop} {m : DuplexM β ε α} (h : Achieves m P)
    (hPQ : ∀ bytes out a, P bytes out a → Q bytes out a) : Achieves m Q := by
  intro d a d' hrun
  obtain ⟨bytes, out, hP, hpending, hwritten⟩ := h d a d' hrun
  exact ⟨bytes, out, hPQ _ _ _ hP, hpending, hwritten⟩

theorem Achieves.pure {a : α} (h : P [] [] a) : Achieves (pure a : DuplexM β ε α) P := by
  intro d a' d' hrun
  cases hrun
  exact ⟨[], [], h, rfl, (List.append_nil _).symm⟩

theorem Achieves.throw (e : ε) (P : List β → List β → α → Prop) : Achieves (throw e : DuplexM β ε α) P := by
  intro d a d' hrun
  cases hrun

theorem Achieves.lift {x : Except ε α} (h : ∀ a, x = .ok a → P [] [] a) : Achieves (lift x : DuplexM β ε α) P := by
  intro d a d' hrun
  cases hrun
  exact ⟨[], [], h a rfl, rfl, (List.append_nil _).symm⟩

theorem Achieves.bind {m : DuplexM β ε α} {f : α → DuplexM β ε γ} {Q : List β → List β → γ → Prop}
    (hm : Achieves m P) (hf : ∀ bytes out a, P bytes out a →
      Achieves (f a) fun bytes' out' c => Q (bytes ++ bytes') (out ++ out') c) : Achieves (m >>= f) Q := by
  intro d c d' hrun
  obtain ⟨a, mid, hm', hf'⟩ := bind_eq_ok_iff.mp hrun
  obtain ⟨bytes, out, hP, hpending, hwritten⟩ := hm d a mid hm'
  obtain ⟨bytes', out', hQ, hpending', hwritten'⟩ := hf bytes out a hP mid c d' hf'
  exact ⟨bytes ++ bytes', out ++ out', hQ, by rw [hpending, hpending', List.append_assoc],
    by rw [hwritten', hwritten, List.append_assoc]⟩

theorem Achieves.readExact (eof : Nat → Nat → ε) (size : Nat) :
    Achieves (ofRead (ReadM.readExact eof size) : DuplexM β ε (List β))
      fun bytes out a => bytes.length = size ∧ out = [] ∧ a = bytes := by
  intro d a d' hrun
  simp only [ofRead, Prod.mk.injEq] at hrun
  obtain ⟨hok, rfl⟩ := hrun
  obtain ⟨hlength, hpending, -⟩ := ReadM.pending_of_readExact (Prod.ext hok rfl)
  exact ⟨a, [], ⟨hlength, rfl, rfl⟩, hpending, (List.append_nil _).symm⟩

theorem Achieves.writeAll (bytes : List β) :
    Achieves (writeAll bytes : DuplexM β ε Unit) fun read out _ => read = [] ∧ out = bytes := by
  intro d a d' hrun
  cases hrun
  exact ⟨[], bytes, ⟨rfl, rfl⟩, rfl, rfl⟩

/-! ## 読む長さ -/

/-- どう終わっても、高々 `n` しか読まない。 -/
def ReadsAtMost (n : Nat) (m : DuplexM β ε α) : Prop :=
  ∀ d, ∃ bytes, d.pending = bytes ++ (m d).2.pending ∧ bytes.length ≤ n

theorem ReadsAtMost.lift (n : Nat) (x : Except ε α) : ReadsAtMost n (lift x : DuplexM β ε α) :=
  fun _ => ⟨[], rfl, Nat.zero_le n⟩

theorem ReadsAtMost.pure (n : Nat) (a : α) : ReadsAtMost n (pure a : DuplexM β ε α) := fun _ => ⟨[], rfl, Nat.zero_le n⟩

theorem ReadsAtMost.writeAll (n : Nat) (bytes : List β) : ReadsAtMost n (writeAll bytes : DuplexM β ε Unit) :=
  fun _ => ⟨[], rfl, Nat.zero_le n⟩

theorem ReadsAtMost.mono {n k : Nat} {m : DuplexM β ε α} (h : ReadsAtMost n m) (hle : n ≤ k) : ReadsAtMost k m := by
  intro d
  obtain ⟨bytes, hpending, hlength⟩ := h d
  exact ⟨bytes, hpending, hlength.trans hle⟩

theorem ReadsAtMost.bind {n k : Nat} {m : DuplexM β ε α} {f : α → DuplexM β ε γ} (hm : ReadsAtMost n m)
    (hf : ∀ a, ReadsAtMost k (f a)) : ReadsAtMost (n + k) (m >>= f) := by
  intro d
  obtain ⟨bytes, hpending, hlength⟩ := hm d
  rw [bind_apply]
  rcases hrun : m d with ⟨e | a, mid⟩
  · rw [hrun] at hpending
    exact ⟨bytes, hpending, hlength.trans (Nat.le_add_right n k)⟩
  · rw [hrun] at hpending
    obtain ⟨bytes', hpending', hlength'⟩ := hf a mid
    refine ⟨bytes ++ bytes', by rw [hpending, hpending', List.append_assoc], ?_⟩
    rw [List.length_append]
    exact Nat.add_le_add hlength hlength'

theorem ReadsAtMost.readExact (eof : Nat → Nat → ε) (size : Nat) :
    ReadsAtMost size (ofRead (ReadM.readExact eof size) : DuplexM β ε (List β)) := by
  intro d
  obtain ⟨bytes, hpending, hlength⟩ := ReadM.pending_of_fillLoop eof size size [] d.incoming
  exact ⟨bytes, hpending, hlength.trans (Nat.sub_le _ _)⟩

end DuplexM

end IsekaiTerminal.Lib
