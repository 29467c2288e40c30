import IsekaiTerminal.Lib.Base64
import IsekaiTerminal.Lib.Json
import IsekaiTerminal.Lib.Wire
import IsekaiTerminal.Lib.Transition

/-!
# ビルドの応答と実行

`isekai-protocol/src/ctl.rs` の `CtlMessage` のうちビルドの応答の 2 つと、その符号化、`decode_ctl_message` を定める。
ほかの種類のメッセージはまとめて `other` とする。JSON の読み取りはリポジトリの外の計算であり、`Serde` に置く。
-/

namespace IsekaiTerminal.Build

open Lib

abbrev Text := List Char
abbrev Bytes := List UInt8

def maxCtlMessageLineLen : Nat := 8 * 1024 * 1024
def maxBuildChunkDecodedLen : Nat := 64 * 1024
def maxBuildResultPaths : Nat := 64
def maxBuildResultPathLen : Nat := 4 * 1024

inductive BuildOutputStream where
  | stdout
  | stderr
  deriving DecidableEq

inductive BuildMessage where
  | buildOutputChunk (stream : BuildOutputStream) (dataB64 : Text)
  | buildFinished (exitCode : Int32) (resultPaths : List Text)
  deriving DecidableEq

inductive CtlMessage where
  | build (message : BuildMessage)
  | other

/-! ## 符号化 -/

def BuildOutputStream.name : BuildOutputStream → Text
  | .stdout => "stdout".toList
  | .stderr => "stderr".toList

/-! JSON の文の、値の間の定まった部分。 -/

def chunkHead : Text := "\x7b\"op\":\"build_output_chunk\",\"stream\":".toList
def chunkData : Text := ",\"data_b64\":".toList
def finishedHead : Text := "\x7b\"op\":\"build_finished\",\"exit_code\":".toList
def finishedPaths : Text := "\"result_paths\":".toList
def closing : Text := "\x7d".toList

/-- `#[serde(tag = "op")]` による JSON の文。 -/
def BuildMessage.text : BuildMessage → Text
  | .buildOutputChunk stream dataB64 =>
      chunkHead ++ (Json.string stream.name ++ (chunkData ++ (Json.string dataB64 ++ closing)))
  | .buildFinished exitCode resultPaths =>
      finishedHead ++ ((Json.int exitCode.toInt ++ [',']) ++ (finishedPaths ++ (Json.strings resultPaths ++ closing)))

/-- `serde_json::to_vec`。 -/
def toVec (message : BuildMessage) : Bytes := encodeUtf8 message.text

def encodeBuildOutputChunk (stream : BuildOutputStream) (bytes : Bytes) : Bytes :=
  toVec (.buildOutputChunk stream (Base64.encode bytes)) ++ [10]

def encodeBuildFinished (exitCode : Int32) (resultPaths : List Text) : Bytes :=
  toVec (.buildFinished exitCode resultPaths) ++ [10]

/-! ## 復号 -/

/-- `serde_json::from_slice`。書いた JSON を読み、途中で切れた JSON を拒否する。 -/
structure Serde where
  fromSlice : Bytes → Option CtlMessage
  fromSlice_toVec : ∀ message, fromSlice (toVec message) = some (.build message)
  fromSlice_of_cut : ∀ message cut, cut <+: toVec message → cut ≠ toVec message → fromSlice cut = none

/-- ほかの種類のメッセージは、検査の結果によらず `stream_build` が拒否する。 -/
def validateCtlMessage : CtlMessage → Bool
  | .build (.buildOutputChunk _ dataB64) =>
      (Base64.decode dataB64).any fun decoded => decoded.length ≤ maxBuildChunkDecodedLen
  | .build (.buildFinished _ resultPaths) =>
      resultPaths.length ≤ maxBuildResultPaths &&
        resultPaths.all fun path => (encodeUtf8 path).length ≤ maxBuildResultPathLen
  | .other => true

section

variable (serde : Serde)

def decodeCtlMessage (bytes : Bytes) : Option CtlMessage :=
  if bytes.length > maxCtlMessageLineLen then none
  else (serde.fromSlice bytes).filter fun parsed => validateCtlMessage parsed

end

/-!
## ビルドの応答の受信

`isekai-pipe/src/ctl.rs` の `stream_build` を、接続が閉じるまでに届いたバイト列の関数として表す。標準出力と標準エラー
への書き込みは失敗しない。
-/

def exUnavailable : UInt8 := 69

/-- `isekai-pipe ctl build` の書き込みと結果。`code` は `stream_build` の返り値であり、`Err` は `none` とする。 -/
structure Remote where
  stdout : Bytes
  stderr : Bytes
  code : Option UInt8
  deriving DecidableEq

/-- プロセスの終了コード。 -/
def Remote.exitCode (r : Remote) : UInt8 := r.code.getD exUnavailable

/-- 結果のファイルの数を知らせる行。 -/
def resultNotice (resultPaths : List Text) : Bytes :=
  if resultPaths = [] then []
  else encodeUtf8 ("isekai-pipe ctl build: ".toList ++ Nat.toDigits 10 resultPaths.length ++
    " result file(s) will be pushed to the profile's configured dest_dir\n".toList)

/-- `exit_code.clamp(0, i32::from(u8::MAX)) as u8`。 -/
def clampExitCode (exitCode : Int32) : UInt8 := UInt8.ofNat (min (max exitCode.toInt 0) 255).toNat

section

variable (serde : Serde)

/-- `read_line` の 1 行の復号。行は UTF-8 でなければならず、終わりの改行を除いて読む。 -/
def decodeLine (line : Bytes) : Option CtlMessage :=
  if isUtf8 line then decodeCtlMessage serde (line.rdropWhile (· = 10)) else none

/-- `stream_build` のループ。`stdout` と `stderr` は書き終えたバイト列である。 -/
def streamLines : List Bytes → Bytes → Bytes → Remote
  | [], stdout, stderr => ⟨stdout, stderr, none⟩
  | line :: lines, stdout, stderr =>
      match decodeLine serde line with
      | some (.build (.buildOutputChunk stream dataB64)) =>
          match Base64.decode dataB64 with
          | none => ⟨stdout, stderr, none⟩
          | some decoded =>
              match stream with
              | .stdout => streamLines lines (stdout ++ decoded) stderr
              | .stderr => streamLines lines stdout (stderr ++ decoded)
      | some (.build (.buildFinished exitCode resultPaths)) =>
          ⟨stdout, stderr ++ resultNotice resultPaths, some (clampExitCode exitCode)⟩
      | some .other => ⟨stdout, stderr, none⟩
      | none => ⟨stdout, stderr, none⟩

def streamBuild (received : Bytes) : Remote := streamLines serde (splitLines 10 received) [] []

end

/-!
## ビルドの実行

`isekai-ssh/src/build_exec.rs` の `run_build` を、子プロセスのパイプ、2 つの `pump_bytes`、容量 32 の `mpsc`、応答を送る
ループの状態機械として表す。1 つの `read` と `send` の組を不可分とし、`read` が返す長さ、タスクの順番、接続の切断の
時点は任意とする。パイプの読み取りは失敗しない。
-/

/-- `BuildProfile` のうち `run_build` が読むフィールド。 -/
structure BuildProfile where
  command : Text
  dir : Text
  resultGlob : Option Text
  destDir : Option Text

/-- 子プロセスの起動の結果。`wait` は待ち合わせの結果であり、待てないとき `none`、シグナルで終わったとき `some none`。 -/
inductive Spawn where
  | failed (error : Text)
  | spawned (stdout stderr : Bytes) (wait : Option (Option Int32))

/-- リポジトリの外の計算。`glob` は `glob::glob` の返すパスの並びであり、誤った模様のとき `none`、読めない項目を
`none` とする。`debug` は文字列の `Debug` による表示。 -/
structure Env where
  findProfile : Text → Text → Option BuildProfile
  spawn : BuildProfile → Spawn
  glob : Text → Text → Option (List (Option Text))
  debug : Text → Text

/-! ## 結果のファイル -/

/-- `glob_results` のループ。`matches` は集めたパスである。 -/
def collectMatches : List (Option Text) → List Text → Option (List Text)
  | [], found => some found
  | none :: _, _ => none
  | some path :: entries, found =>
      if (found ++ [path]).length ≥ maxBuildResultPaths then some (found ++ [path])
      else collectMatches entries (found ++ [path])

section

variable (env : Env)

def globResults (dir globPattern : Text) : Option (List Text) :=
  (env.glob dir globPattern).bind fun entries => collectMatches entries []

def resultPaths (profile : BuildProfile) : List Text :=
  match profile.resultGlob, profile.destDir with
  | some glob, some _ => (globResults env profile.dir glob).getD []
  | _, _ => []

/-! ## 知らせる行 -/

def unknownProfileNotice (host profileName : Text) : Bytes :=
  encodeUtf8 ("isekai-ssh: no build profile registered for ".toList ++ env.debug host ++ '/' :: env.debug profileName ++
    ['\n'])

def spawnFailedNotice (host profileName error : Text) : Bytes :=
  encodeUtf8 ("isekai-ssh: failed to spawn build profile ".toList ++ env.debug host ++ '/' :: env.debug profileName ++
    ':' :: ' ' :: error ++ ['\n'])

/-! ## 状態 -/

/-- `pump_bytes` の `read` のバッファの長さ。 -/
def pumpBufLen : Nat := 8 * 1024

def relayCapacity : Nat := 32

inductive Phase where
  | starting
  | relaying (profile : BuildProfile) (wait : Option (Option Int32))
  | waiting (profile : BuildProfile) (wait : Option (Option Int32))
  | done

/-- `unread` はパイプに残るバイト列、`queue` は `mpsc` のチャンク、`chunks` と `finished` は `relay` に渡した
メッセージである。 -/
structure Client where
  phase : Phase
  unread : BuildOutputStream → Bytes
  queue : List (BuildOutputStream × Bytes)
  chunks : List (BuildOutputStream × Bytes)
  finished : Option (Int32 × List Text)

def Client.new : Client where
  phase := .starting
  unread := fun _ => []
  queue := []
  chunks := []
  finished := none

/-- `relay` に渡した行。 -/
def Client.offered (c : Client) : List Bytes :=
  c.chunks.map (fun chunk => encodeBuildOutputChunk chunk.1 chunk.2) ++
    (c.finished.map fun finished => encodeBuildFinished finished.1 finished.2).toList

/-! ## 遷移 -/

/-- `start` はプロファイルの検索と起動、`pump` は `stream` のパイプからの `n` バイト、`relay` はチャンク 1 つの送信と
その結果、`watch` は接続の切断、`drain` は 2 つのパイプの終わり、`wait` は子プロセスの待ち合わせと完了の送信。 -/
inductive Action where
  | start
  | pump (stream : BuildOutputStream) (n : Nat)
  | relay (sent : Bool)
  | watch
  | drain
  | wait

variable (host profileName : Text)

/-- 子プロセスを待たずに終わる枝。 -/
def Client.refuse (c : Client) (notice : Bytes) (exitCode : Int32) : Client :=
  { c with phase := .done, chunks := [(.stderr, notice)], finished := some (exitCode, []) }

def Client.start (c : Client) : Client :=
  match env.findProfile host profileName with
  | none => c.refuse (unknownProfileNotice env host profileName) 127
  | some profile =>
      match env.spawn profile with
      | .failed error => c.refuse (spawnFailedNotice env host profileName error) 126
      | .spawned stdout stderr wait =>
          { c with
            phase := .relaying profile wait
            unread := fun stream =>
              match stream with
              | .stdout => stdout
              | .stderr => stderr }

/-- `status.code().unwrap_or(-1)` を送る。待てないときは何も送らない。 -/
def Client.finish (c : Client) (profile : BuildProfile) : Option (Option Int32) → Client
  | none => { c with phase := .done }
  | some status => { c with phase := .done, finished := some (status.getD (-1), resultPaths env profile) }

def Client.step (c : Client) : Action → Option Client
  | .start =>
      match c.phase with
      | .starting => some (c.start env host profileName)
      | _ => none
  | .pump stream n =>
      match c.phase with
      | .relaying _ _ =>
          if 0 < n ∧ n ≤ pumpBufLen ∧ n ≤ (c.unread stream).length ∧ c.queue.length < relayCapacity then
            some { c with
              unread := Function.update c.unread stream ((c.unread stream).drop n)
              queue := c.queue ++ [(stream, (c.unread stream).take n)] }
          else none
      | _ => none
  | .relay sent =>
      match c.phase, c.queue with
      | .relaying profile wait, chunk :: queue =>
          some { c with
            phase := if sent then .relaying profile wait else .done
            queue := queue
            chunks := c.chunks ++ [chunk] }
      | _, _ => none
  | .watch =>
      match c.phase with
      | .relaying _ _ => some { c with phase := .done }
      | _ => none
  | .drain =>
      match c.phase with
      | .relaying profile wait =>
          if c.queue = [] ∧ c.unread .stdout = [] ∧ c.unread .stderr = [] then
            some { c with phase := .waiting profile wait }
          else none
      | _ => none
  | .wait =>
      match c.phase with
      | .waiting profile wait => some (c.finish env profile wait)
      | _ => none

def Client.Steps (c : Client) (a : Action) (c' : Client) : Prop := c.step env host profileName a = some c'

/-! ## 仕様 -/

/-- 子プロセスが標準出力と標準エラーに書くバイト列と、待ち合わせの結果。起動しないときは何も書かない。 -/
structure Child where
  stdout : Bytes
  stderr : Bytes
  wait : Option (Option Int32)

/-- 依頼が起動する子プロセスと、道具が標準エラーに書く行。 -/
def child : Child × Bytes :=
  match env.findProfile host profileName with
  | none => (⟨[], [], none⟩, unknownProfileNotice env host profileName)
  | some profile =>
      match env.spawn profile with
      | .failed error => (⟨[], [], none⟩, spawnFailedNotice env host profileName error)
      | .spawned stdout stderr wait => (⟨stdout, stderr, wait⟩, [])

/-- 完了のメッセージが届いた。改行の前までが届けば足りる。 -/
def Client.Arrived (c : Client) (received : Bytes) (exitCode : Int32) (resultPaths : List Text) : Prop :=
  c.finished = some (exitCode, resultPaths) ∧
    (c.chunks.map fun chunk => encodeBuildOutputChunk chunk.1 chunk.2).flatten ++
      toVec (.buildFinished exitCode resultPaths) <+: received

/-- 終了コード 0 は、子プロセスの成功と完了の到着を表す。送った完了を受信側は正しいメッセージと認め、それが届けば
出力は子プロセスの出力そのものである。 -/
structure Faithful (serde : Serde) (c : Client) (received : Bytes) : Prop where
  success : (streamBuild serde received).exitCode = 0 ↔
    (child env host profileName).1.wait = some (some 0) ∧ ∃ exitCode resultPaths, c.Arrived received exitCode resultPaths
  accepted : ∀ exitCode resultPaths, c.finished = some (exitCode, resultPaths) →
    decodeLine serde (encodeBuildFinished exitCode resultPaths) = some (.build (.buildFinished exitCode resultPaths))
  complete : ∀ exitCode resultPaths, c.Arrived received exitCode resultPaths →
    ∃ code, streamBuild serde received =
      ⟨(child env host profileName).1.stdout,
        (child env host profileName).2 ++ (child env host profileName).1.stderr ++ resultNotice resultPaths, some code⟩

/-- 完了の値を、終了コードと結果のパスの符号化が表せる。 -/
def Representable : Prop :=
  match env.findProfile host profileName with
  | none => (unknownProfileNotice env host profileName).length ≤ maxBuildChunkDecodedLen
  | some profile =>
      match env.spawn profile with
      | .failed error => (spawnFailedNotice env host profileName error).length ≤ maxBuildChunkDecodedLen
      | .spawned _ _ none => True
      | .spawned _ _ (some status) =>
          0 ≤ (status.getD (-1)).toInt ∧
            ∀ path ∈ resultPaths env profile, (encodeUtf8 path).length ≤ maxBuildResultPathLen

end

end IsekaiTerminal.Build
