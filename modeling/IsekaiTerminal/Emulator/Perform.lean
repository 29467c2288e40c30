import IsekaiTerminal.Emulator.Csi

/-!
# OSC、ESC、DCS

残りの `Perform` のコールバックと、端末の 1 回の遷移を定める。
-/

namespace IsekaiTerminal.Emulator

def maxLinkTable : Nat := 4096
def maxPromptMarks : Nat := 2000

/-! ## リンク -/

def isDisallowedHyperlinkChar (c : Char) : Bool :=
  let n := c.toNat
  (0x202A ≤ n && n ≤ 0x202E) || (0x2066 ≤ n && n ≤ 0x2069) || n ≤ 0x1F || n = 0x7F || (0x80 ≤ n && n ≤ 0x9F)

def containsDisallowedHyperlinkChars (s : List Char) : Bool := s.any isDisallowedHyperlinkChar

namespace Links

/-- 同じ URL には同じ id を返す。表が満ちた後の新しい URL は登録しない。 -/
def internLink (l : Links) (uri : List Char) : Option Nat × Links :=
  if containsDisallowedHyperlinkChars uri then (none, l)
  else
    match l.linkIds uri with
    | some id => (some id, l)
    | none =>
      if l.linkTable.length ≥ maxLinkTable then (none, l)
      else
        let id := l.linkTable.length
        (some id, { l with linkTable := l.linkTable ++ [uri], linkIds := Function.update l.linkIds uri (some id) })

/-- 空の URI は、リンクを閉じる。 -/
def setActive (l : Links) (uri : Option (List Char)) : Links :=
  match uri with
  | some (c :: cs) =>
    let (id, l) := l.internLink (c :: cs)
    { l with activeLinkId := id }
  | _ => { l with activeLinkId := none }

end Links

/-! ## プロンプト -/

def promptMarkKind (sub : List UInt8) (extra : Option (List UInt8)) : Option PromptMarkKind :=
  if sub = bytesOf "A" then some .promptStart
  else if sub = bytesOf "B" then some .commandStart
  else if sub = bytesOf "C" then some .commandExecuted
  else if sub = bytesOf "D" then
    some (.commandFinished do
      let bytes ← extra
      let s ← fromUtf8? bytes
      parseI32? (trim s))
  else none

namespace Prompt

def finishOutput (p : Prompt) : Prompt :=
  if p.capturingCommandOutput then
    { p with
      currentOutputLine := []
      currentOutputLines := []
      lastCommandOutput := some
        (if p.currentOutputLine.isEmpty then p.currentOutputLines else p.currentOutputLines ++ [p.currentOutputLine])
      capturingCommandOutput := false }
  else { p with capturingCommandOutput := false }

def capture (p : Prompt) : PromptMarkKind → Prompt
  | .commandExecuted =>
    { p with capturingCommandOutput := true, currentOutputLine := [], currentOutputLines := [] }
  | .commandFinished _ => p.finishOutput
  | _ => p

def pushMark (p : Prompt) (mark : PromptMark) : Prompt :=
  let marks := p.promptMarks ++ [mark]
  { p with promptMarks := if marks.length > maxPromptMarks then marks.drop 1 else marks }

def mark (p : Prompt) (mark : PromptMark) : Prompt :=
  ({ p with inputLineActive := mark.kind = PromptMarkKind.commandStart }.capture mark.kind).pushMark mark

end Prompt

/-! ## 色 -/

inductive DefaultColorTarget
  | foreground
  | background
  | cursor
deriving DecidableEq

/-- `{:02x}`。 -/
def hex2 (n : UInt8) : String := String.ofList [Nat.digitChar (n.toNat / 16), Nat.digitChar (n.toNat % 16)]

def colorReport (target : DefaultColorTarget) (rgb : UInt8 × UInt8 × UInt8) (bellTerminated : Bool) : String :=
  let num := match target with
    | .foreground => "10"
    | .background => "11"
    | .cursor => "12"
  let (r, g, b) := rgb
  "\x1b]" ++ num ++ ";rgb:" ++ hex2 r ++ hex2 r ++ "/" ++ hex2 g ++ hex2 g ++ "/" ++ hex2 b ++ hex2 b ++
    if bellTerminated then "\x07" else "\x1b\\"

namespace Terminal

def defaultColor (t : Terminal) : DefaultColorTarget → UInt8 × UInt8 × UInt8
  | .foreground => argbToRgb888 t.theme.defaultFg
  | .background => argbToRgb888 t.theme.defaultBg
  | .cursor => t.host.cursorColor.getD (argbToRgb888 t.theme.defaultFg)

/-- 今の属性が既定の色を指していれば、新しい既定の色に従う。 -/
def setDefaultColor (t : Terminal) (argb : UInt32) : DefaultColorTarget → Terminal
  | .foreground =>
    let a := t.cursor.attrs
    { t.setAttrs { a with fg := if a.fg = t.theme.defaultFg then argb else a.fg } with
      theme := { t.theme with defaultFg := argb } }
  | .background =>
    let a := t.cursor.attrs
    { t.setAttrs { a with bg := if a.bg = t.theme.defaultBg then argb else a.bg } with
      theme := { t.theme with defaultBg := argb } }
  | .cursor => { t with host := { t.host with cursorColor := some (argbToRgb888 argb) } }

def handleOscDefaultColor (t : Terminal) (target : DefaultColorTarget) (spec : List UInt8) (bellTerminated : Bool) :
    Terminal :=
  if spec = bytesOf "?" then t.respond (colorReport target (t.defaultColor target) bellTerminated)
  else match parseOscColorSpec spec with
    | some argb => t.setDefaultColor argb target
    | none => t

def setTabColor (t : Terminal) (rgb : UInt8 × UInt8 × UInt8) : Terminal :=
  { t with host := { t.host with tabColor := some rgb } }

def handleOsc6Iterm2TabColor (t : Terminal) (params : List (List UInt8)) : Terminal :=
  if params[2]? = some (bytesOf "bg") ∧ params[4]? = some (bytesOf "brightness") then
    let value : Option UInt8 := do
      let bytes ← params[5]?
      let s ← fromUtf8? bytes
      UInt8.ofNat <$> parseUnsigned? 255 s
    let (r, g, b) := t.host.tabColor.getD (0, 0, 0)
    match params[3]?, value with
    | some channel, some value =>
      if channel = bytesOf "red" then t.setTabColor (value, g, b)
      else if channel = bytesOf "green" then t.setTabColor (r, value, b)
      else if channel = bytesOf "blue" then t.setTabColor (r, g, value)
      else t
    | _, _ => t
  else t

/-! ## OSC -/

/-- `params[2..]` を `;` で再び結合した URI。 -/
def hyperlinkUri (params : List (List UInt8)) : Option (List Char) :=
  if params.length ≥ 3 then fromUtf8? ((params.drop 2).intersperse [semicolon]).flatten else none

def handleOsc8Hyperlink (t : Terminal) (params : List (List UInt8)) : Terminal :=
  { t with links := t.links.setActive (hyperlinkUri params) }

def handleOsc133PromptMark (t : Terminal) (sub : List UInt8) (extra : Option (List UInt8)) : Terminal :=
  match promptMarkKind sub extra with
  | some kind => { t with prompt := t.prompt.mark { kind, row := t.totalScrolledLines + t.cursor.row } }
  | none => t

/-- OSC 52。`?` は読み出しの要求である。 -/
def handleOsc52 (env : Env) (t : Terminal) (payload : List UInt8) : Terminal :=
  if payload = bytesOf "?" then { t with host := { t.host with pendingClipboardPullRequest := true } }
  else match (env.base64Decode payload).bind fromUtf8? with
    | some text => { t with host := { t.host with pendingClipboardWrite := some text } }
    | none => t

def setTitle (t : Terminal) (title : List Char) : Terminal := { t with host := { t.host with title := some title } }

def oscDispatch (env : Env) (t : Terminal) (params : List (List UInt8)) (bellTerminated : Bool) : Terminal :=
  let code := params[0]?
  match params[1]? with
  | some arg =>
    if code = some (bytesOf "0") ∨ code = some (bytesOf "2") then
      match fromUtf8? arg with
      | some s => t.setTitle s
      | none => t
    else if code = some (bytesOf "10") then t.handleOscDefaultColor .foreground arg bellTerminated
    else if code = some (bytesOf "11") then t.handleOscDefaultColor .background arg bellTerminated
    else if code = some (bytesOf "12") then t.handleOscDefaultColor .cursor arg bellTerminated
    else if code = some (bytesOf "112") then { t with host := { t.host with cursorColor := none } }
    else if code = some (bytesOf "4") ∧ arg = bytesOf "264" then
      match params[2]?.bind parseOscColorSpec with
      | some argb => t.setTabColor (argbToRgb888 argb)
      | none => t
    else if code = some (bytesOf "6") ∧ arg = bytesOf "1" then t.handleOsc6Iterm2TabColor params
    else if code = some (bytesOf "8") then t.handleOsc8Hyperlink params
    else if code = some (bytesOf "133") then t.handleOsc133PromptMark arg params[2]?
    else if code = some (bytesOf "52") then
      match params[2]? with
      | some payload => t.handleOsc52 env payload
      | none => t
    else t
  | none =>
    if code = some (bytesOf "112") then { t with host := { t.host with cursorColor := none } }
    else if code = some (bytesOf "8") then t.handleOsc8Hyperlink params
    else t

/-! ## DCS -/

def setSixelDecoder (t : Terminal) (sixelDecoder : Option SixelDecoder) : Terminal :=
  { t with graphics := { t.graphics with sixelDecoder } }

def hook (t : Terminal) (c : Char) : Terminal := t.setSixelDecoder (if c = 'q' then some .new else none)

def put (env : Env) (t : Terminal) (byte : UInt8) : Terminal :=
  t.setSixelDecoder (t.graphics.sixelDecoder.map fun dec => dec.feed env byte)

def unhook (t : Terminal) : Option Terminal :=
  match t.graphics.sixelDecoder.bind SixelDecoder.finish with
  | some img => (t.setSixelDecoder none).placeSixelImage img
  | none => some (t.setSixelDecoder none)

/-! ## ESC -/

/-- RI。 -/
def reverseIndex (t : Terminal) : Option Terminal :=
  if t.cursor.row = t.scrollTop then t.damageAll.shiftRowsDown t.scrollTop t.scrollBottom 1
  else if t.cursor.row > 0 then some (t.setCursorRow (t.cursor.row - 1))
  else some t

def designated (byte : UInt8) : Charset := if byte = 0x30 then .decSpecialGraphics else .ascii

def escDispatch (t : Terminal) (ints : List UInt8) (byte : UInt8) : Option Terminal :=
  if ints = [] then
    if byte = 0x4d then t.reverseIndex
    else if byte = 0x63 then some t.resetAll
    else if byte = 0x37 then some t.saveCursorDecsc
    else if byte = 0x38 then some t.restoreCursorDecrc
    else if byte = 0x48 then t.setTabStop true
    else if byte = 0x3d then some (t.setModes fun m => { m with applicationKeypadMode := true })
    else if byte = 0x3e then some (t.setModes fun m => { m with applicationKeypadMode := false })
    else some t
  else if ints = [0x28] then some { t with cursor := { t.cursor with g0 := designated byte } }
  else if ints = [0x29] then some { t with cursor := { t.cursor with g1 := designated byte } }
  else some t

end Terminal

/-! ## 遷移 -/

/-- `Perform` のコールバック、APC、リサイズ。 -/
inductive Event
  | print (c : Char)
  | execute (byte : UInt8)
  | csiDispatch (params : Params) (intermediates : List UInt8) (action : Char)
  | oscDispatch (params : List (List UInt8)) (bellTerminated : Bool)
  | escDispatch (ints : List UInt8) (byte : UInt8)
  | hook (c : Char)
  | put (byte : UInt8)
  | unhook
  | apc (payload : List UInt8) (now : Nat)
  | resize (cols rows : Nat)
deriving DecidableEq

/-- 1 回の遷移。`none` は、添字の範囲外の参照か桁下がりによる panic である。 -/
def Terminal.step (env : Env) (t : Terminal) : Event → Option Terminal
  | .print c => t.print env c
  | .execute byte => t.execute byte
  | .csiDispatch params intermediates action => t.csiDispatch env params intermediates action
  | .oscDispatch params bellTerminated => some (t.oscDispatch env params bellTerminated)
  | .escDispatch ints byte => t.escDispatch ints byte
  | .hook c => some (t.hook c)
  | .put byte => some (t.put env byte)
  | .unhook => t.unhook
  | .apc payload now => t.dispatchApc env payload now
  | .resize cols rows => t.resizePreservingState env cols rows

def Terminal.exec (env : Env) (t : Terminal) (events : List Event) : Option Terminal := events.foldlM (step env) t

end IsekaiTerminal.Emulator
