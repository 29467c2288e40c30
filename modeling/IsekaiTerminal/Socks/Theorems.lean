import IsekaiTerminal.Socks.Lemmas.Negotiate

/-!
# SOCKS の対話の性質

対話が文法どおりに進むのは、長さか文字の制限を破った CONNECT の要求で始まらない列に対して、ちょうどそのときである。
その要求だけが、失敗の応答の無いまま捨てられる。
-/

namespace IsekaiTerminal.Socks

open Lib Lib.DuplexM

theorem Request.Accepted.conducts {r : Request} (h : r.Accepted) :
    ∃ host, r.Names host ∧ Conducts negotiate r.bytes r.successReply (.ok (host, r.port)) := by
  obtain ⟨hcmd, hknown, hwf⟩ := h
  cases r with
  | socks4 r => exact negotiate_of_socks4 hcmd hwf
  | socks5 r => exact negotiate_of_socks5 hcmd hknown hwf

/-- 命令か宛先の種別で拒否する要求には、失敗の応答を書く。 -/
theorem Request.refuses {r : Request} (haccepted : ¬r.Accepted) (hwf : r.cmd = 1 → r.Wellformed) :
    ∃ out, Refuses r out ∧ r.FailureReply out := by
  cases r with
  | socks4 r =>
      have hcmd : r.cmd ≠ 1 := fun hcmd => haccepted ⟨hcmd, trivial, hwf hcmd⟩
      exact ⟨_, socks4_refuses_command hcmd, rfl⟩
  | socks5 r =>
      by_cases hcmd : r.cmd = 1
      · have hknown : ¬r.address.Known := fun hknown => haccepted ⟨hcmd, hknown, hwf hcmd⟩
        exact ⟨_, socks5_refuses_unknown hcmd hknown, 8, by decide, rfl⟩
      · exact ⟨_, socks5_refuses_command hcmd, 7, by decide, rfl⟩

/-- 制限を破った CONNECT の要求には、失敗の応答を書かない。 -/
theorem Request.refuses_silently {r : Request} (hcmd : r.cmd = 1) (hwf : ¬r.Wellformed) :
    ∃ out, Refuses r out ∧ ¬r.FailureReply out := by
  cases r with
  | socks4 r => exact ⟨_, socks4_refuses_illFormed hcmd hwf, by simp [Request.FailureReply]⟩
  | socks5 r => exact ⟨_, socks5_refuses_illFormed hcmd hwf, by simp [Request.FailureReply]⟩

theorem speaks_of_not_startsIllFormed {d : TcpStream} (h : ¬StartsIllFormed d) : Speaks d where
  sound host port d' hrun := by
    obtain ⟨bytes, out, ⟨r, haccepted, hnames, hport, rfl, rfl⟩, hpending, hwritten⟩ := achieves_negotiate d _ d' hrun
    exact ⟨r, haccepted, hnames, hport, hpending, hwritten⟩
  complete r rest haccepted hpending := by
    obtain ⟨host, hnames, hconducts⟩ := haccepted.conducts
    obtain ⟨d', hrun, hrest, hwritten⟩ := hconducts d rest hpending
    exact ⟨host, d', hrun, hnames, hrest, hwritten⟩
  refused r rest haccepted hpending := by
    have hwf (hcmd : r.cmd = 1) : r.Wellformed := Classical.not_not.mp fun hbad => h ⟨r, rest, hpending, hcmd, hbad⟩
    obtain ⟨out, hrefuses, hreply⟩ := r.refuses haccepted hwf
    obtain ⟨e, d', hrun, hwritten⟩ := hrefuses.run hpending
    exact ⟨e, d', out, hrun, hwritten, hreply⟩
  bounded := readsAtMost_negotiate d

/-- どの列でも、どの切れ目でも、対話が文法どおりに進むのは、制限を破った CONNECT の要求で始まらないときである。 -/
theorem speaks_iff (d : TcpStream) : Speaks d ↔ ¬StartsIllFormed d := by
  refine ⟨?_, speaks_of_not_startsIllFormed⟩
  rintro hspeaks ⟨r, rest, hpending, hcmd, hwf⟩
  have haccepted : ¬r.Accepted := fun h => hwf h.2.2
  obtain ⟨out, hrefuses, hsilent⟩ := Request.refuses_silently hcmd hwf
  obtain ⟨e, d', hrun, hwritten⟩ := hrefuses.run hpending
  obtain ⟨e', d'', out', hrun', hwritten', hreply⟩ := hspeaks.refused r rest haccepted hpending
  rw [hrun, Prod.mk.injEq] at hrun'
  obtain ⟨-, rfl⟩ := hrun'
  have hout : out = out' := List.append_cancel_left (hwritten.symm.trans hwritten')
  exact hsilent (hout ▸ hreply)

/-- 名前が文字列でない SOCKS5 の CONNECT の要求が、1 度に届いて終わる。 -/
def nonUtf8Name : TcpStream where
  incoming := ⟨[[5, 1, 0, 5, 1, 0, 3, 1, 0xFF, 0, 80]], by simp, none, []⟩
  written := []

theorem not_isUtf8_ff : ¬IsUtf8 [0xFF] := by
  rintro ⟨s, hs⟩
  have hread := Trzsz.fromUtf8?_utf8 s
  rw [hs] at hread
  cases hread

/-- `nonUtf8Name` の対話は、方式の応答だけを書いて誤りで終わる。 -/
theorem not_speaks_nonUtf8Name :
    ¬Speaks nonUtf8Name ∧ (negotiate nonUtf8Name).1 = .error (.malformed "invalid SOCKS5 hostname") ∧
      (negotiate nonUtf8Name).2.written = [5, 0] := by
  refine ⟨fun hspeaks => ?_, rfl, rfl⟩
  have hrefused : ¬(Request.socks5 ⟨[0], 1, 0, .name [0xFF] (by decide), 80, by decide⟩).Accepted :=
    fun h => not_isUtf8_ff h.2.2
  obtain ⟨e, d', out, hrun, hwritten, hreply⟩ := hspeaks.refused _ [] hrefused rfl
  have hout : out = [5, 0] := by
    rw [show d' = (negotiate nonUtf8Name).2 by rw [hrun]] at hwritten
    exact hwritten.symm
  rw [hout] at hreply
  simp [Request.FailureReply] at hreply

end IsekaiTerminal.Socks
