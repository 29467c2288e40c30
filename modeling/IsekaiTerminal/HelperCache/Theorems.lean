import IsekaiTerminal.HelperCache.Lemmas.Serial

/-!
# リリースのバイナリの置き場の性質

プロセスのファイルと HTTP の操作がどの順に交互に進み、どの操作が失敗し、どのプロセスがどこで止まっても、追い越しのない
操作だけの実行では、返されたパスには、そのための完全なファイルがある。
-/

namespace IsekaiTerminal.HelperCache

open Lib SshConfig

/-- 追い越しのない操作だけの実行では、どの状態でも、返したパスにはそのリポジトリとタグのための完全なファイルがあり、
異なる `ReleaseSource` は場所を分け合わず、タグが変わらないと判断したときのバイナリは、そのタグのファイルである。 -/
theorem coherent_of_orderedRun {W : World} {latest : Text → Option Text} {as : List Action} {p : State}
    (h : Run (Guarded (State.Steps W) (Ordered W)) (State.start latest) as p) : p.shared.Coherent W :=
  (State.invariant_of_run h).sound.coherent

/-- 1 つの場所を実行が順に使い、その間に「最新」が動かない実行では、どの操作も追い越さず、同じことが成り立つ。 -/
theorem coherent_of_serialRun {W : World} {latest : Text → Option Text} {as : List Action} {p : State}
    (h : Run (Guarded (State.Steps W) (Serial W)) (State.start latest) as p) : p.shared.Coherent W :=
  (State.invariant_of_run (State.orderedRun_of_serialRun h)).sound.coherent

/-! ## 実行の例 -/

/-- リポジトリとタグと名前がそのまま中身になるサーバー。 -/
def plainServer : World where
  cacheDir := "/cache".toList
  freshnessTtl := 300
  hexSha256 bytes := bytes.flatMap fun b => Nat.toDigits 16 b.toNat
  asset repo tag name := if ".sha256".toList.isSuffixOf name then none else some (asBytes (repo ++ tag ++ name))

def initial : State := .start fun _ => some "v1".toList

/-- 時刻 `now` の、支障のない操作。 -/
def smooth (now : Nat) : Choice := ⟨true, true, 1000, true, now⟩

def begin (pid : Nat) (repo : String) (tag : Option String) : Action :=
  .call (.start pid ⟨repo.toList, tag.map String.toList⟩ "x86_64".toList)

/-- 最初の実行が「最新」を落として、タグを記録する。 -/
def firstRun : List Action := begin 1 "a/b" none :: List.replicate 18 (.run 0 (smooth 1000))

/-- 「最新」が進み、次の実行が落とし直して記録する。その次の実行は、タグが変わらないと判断する。 -/
def updatedRun : List Action :=
  firstRun ++ .call (.release "a/b".toList (some "v2".toList)) :: begin 2 "a/b" none :: List.replicate 23 (.run 2 (smooth 2000)) ++
    begin 3 "a/b" none :: List.replicate 10 (.run 3 (smooth 3000))

theorem any_updatedRun : ((updatedRun.foldlM (fun p a => if Serial plainServer p a then p.step plainServer a else none)
    initial).any fun p => p.pending = [] ∧ p.shared.returned.length = 3 ∧ p.shared.unchanged.length = 1) = true := by
  simp only [State.step, Shared.exec_eq_execAscii]
  decide +kernel

theorem coherent_updatedRun : ∃ p, Run (Guarded (State.Steps plainServer) (Ordered plainServer)) initial updatedRun p ∧
    p.pending = [] ∧ p.shared.returned.length = 3 ∧ p.shared.unchanged.length = 1 ∧ p.shared.Coherent plainServer := by
  obtain ⟨p, hp, hfacts⟩ := (Option.any_eq_true _ _).mp any_updatedRun
  obtain ⟨hq, hreturned, hunchanged⟩ := of_decide_eq_true hfacts
  have hrun : Run (Guarded (State.Steps plainServer) (Ordered plainServer)) initial updatedRun p :=
    State.orderedRun_of_serialRun (Run.guarded_of_foldlM hp)
  exact ⟨p, hrun, hq, hreturned, hunchanged, coherent_of_orderedRun hrun⟩

/-- リポジトリ `a/b_c` のタグ `v1` を落とした後で、リポジトリ `a_b/c` のタグ `v1` を求める。 -/
def sharedRun : List Action :=
  begin 1 "a/b_c" (some "v1") :: List.replicate 14 (.run 0 (smooth 1000)) ++
    begin 2 "a_b/c" (some "v1") :: List.replicate 5 (.run 1 (smooth 2000))

/-- 次の実行が、新しい「最新」を落としてから、タグを記録する前に止まる。「最新」が前のタグに戻る。 -/
def rolledBackRun : List Action :=
  firstRun ++ .call (.release "a/b".toList (some "v2".toList)) :: begin 2 "a/b" none :: List.replicate 17 (.run 2 (smooth 2000)) ++
    .run 2 ⟨false, false, 0, false, 0⟩ :: .call (.release "a/b".toList (some "v1".toList)) :: begin 3 "a/b" none ::
      List.replicate 10 (.run 4 (smooth 3000))

theorem any_incoherentRuns :
    ((sharedRun.foldlM (State.step plainServer) initial).any fun p =>
      p.pending = [] ∧ ∃ v ∈ p.shared.returned, ¬ v.Genuine plainServer p.shared.downloads) = true ∧
    ((rolledBackRun.foldlM (State.step plainServer) initial).any fun p =>
      p.pending = [] ∧ ∃ v ∈ p.shared.unchanged, ¬ v.UpToDate plainServer) = true := by
  unfold State.step
  rw [Shared.exec_eq_execAscii]
  decide +kernel

/-- 別のリポジトリのバイナリのパスを返す実行と、前のタグに戻った後で、新しいタグのバイナリを前のタグのものと判断する
実行が在る。 -/
theorem exists_run_incoherent :
    (∃ p, Run (State.Steps plainServer) initial sharedRun p ∧
      (∃ v ∈ p.shared.returned, ¬ v.Genuine plainServer p.shared.downloads) ∧ ¬ p.shared.Coherent plainServer) ∧
    ∃ p, Run (State.Steps plainServer) initial rolledBackRun p ∧
      (∃ v ∈ p.shared.unchanged, ¬ v.UpToDate plainServer) ∧ ¬ p.shared.Coherent plainServer := by
  obtain ⟨hshared, hrolled⟩ := any_incoherentRuns
  obtain ⟨p, hp, hfacts⟩ := (Option.any_eq_true _ _).mp hshared
  obtain ⟨p', hp', hfacts'⟩ := (Option.any_eq_true _ _).mp hrolled
  obtain ⟨-, v, hv, hgenuine⟩ := of_decide_eq_true hfacts
  obtain ⟨-, v', hv', hupToDate⟩ := of_decide_eq_true hfacts'
  exact ⟨⟨p, Run.of_foldlM hp, ⟨v, hv, hgenuine⟩, fun hc => hgenuine (hc.returned v hv)⟩,
    ⟨p', Run.of_foldlM hp', ⟨v', hv', hupToDate⟩, fun hc => hupToDate (hc.unchanged v' hv')⟩⟩

end IsekaiTerminal.HelperCache
