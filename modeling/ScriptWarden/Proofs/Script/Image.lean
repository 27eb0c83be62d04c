import Mathlib
import ScriptWarden.Proofs.Lua.Guard
import ScriptWarden.Proofs.Text.Utf8
import ScriptWarden.Script.Sandbox
set_option autoImplicit false

/-!
# Scripts: the code of the sandbox

The script that every package starts after is a fixed text, so its code is known: a main function of nineteen
instructions, and the guard.
-/

namespace ScriptWarden.Script

open Lua (Bytes Image Instr Operand Origin Place Program Proto SyntaxFault Value)

/-! ## Code -/

/-- How the code names its environment. -/
def environmentOrigin : Origin := .upvalue (Text.bytes "_ENV")

/-- Set a global variable to a constant. -/
def assignGlobal (name : String) (v : Operand) : Instr :=
  .store (.captured 0) (.const (.text name)) v environmentOrigin

/-- Read a global variable. -/
def readGlobal (name : String) : Instr := .index (.captured 0) (.const (.text name)) environmentOrigin

/-- The instructions of the main function. -/
def sandboxCode : Array Instr := #[
  assignGlobal "dofile" (.const .nil),
  assignGlobal "loadfile" (.const .nil),
  assignGlobal "load" (.const .nil),
  assignGlobal "loadstring" (.const .nil),
  assignGlobal "collectgarbage" (.const .nil),
  assignGlobal "debug" (.const .nil),
  readGlobal "string",
  .store .top (.const (.text "dump")) (.const .nil) (.globalVar (Text.bytes "string")),
  readGlobal "getmetatable",
  .push (.const (.text "")),
  .call 1 false (.exactly 1) (.globalVar (Text.bytes "getmetatable")),
  .declare 0,
  .branch (.slot 0) false 14,
  .store (.slot 0) (.const (.text "__metatable")) (.const (.bool false))
    (.localVar (Text.bytes "stringMeta")),
  readGlobal "setmetatable",
  .declare 1,
  .closure 0,
  assignGlobal "setmetatable" .top,
  .return 0 false]

/-- The main function. -/
def sandboxProto : Proto where
  code := sandboxCode
  lines := #[4, 5, 6, 7, 8, 9, 12, 12, 15, 15, 15, 15, 16, 17, 21, 21, 27, 27, 27]
  params := 0
  isVararg := true
  captures := #[.slot 0]
  slots := 2
  line := 0

/-- The code of the whole script. -/
def sandboxImage : Image where
  chunk := sandboxChunk
  shownName := Text.bytes "[string \"sandboxer\"]"
  protos := #[Lua.guardProto, sandboxProto]

/-! ## Reading the script -/

/-- The tokens of a text that is given by its characters. -/
def scanChars (cs : List Char) : List Lua.Lexeme × Option SyntaxFault :=
  let (got, fault) := Lua.Lexer.collect ((Text.utf8 cs).length + 1) [] ⟨Text.utf8 cs, 1⟩
  (got.reverse, fault)

/-- The program behind tokens. -/
def parseLexemes (chunk : Bytes) (scanned : List Lua.Lexeme × Option SyntaxFault) :
    Except SyntaxFault Program := do
  let (lexemes, fault) := scanned
  match lexemes, fault with
  | [], some e => .error e
  | [], none => .error ⟨1, Text.bytes "no program"⟩
  | l :: rest, fault =>
    let start : Lua.Parser.State := { current := l, rest, fault }
    let (_, s) ← (Lua.Parser.mainFunction (8 * lexemes.length + 64)).run start
    return { chunk, functions := s.functions }

theorem toList_bytes (cs : List Char) : (Text.bytes (String.ofList cs)).toList = Text.utf8 cs := by
  rw [Text.bytes, Text.toList_toUTF8, String.toList_ofList]

theorem size_bytes (cs : List Char) : (Text.bytes (String.ofList cs)).size = (Text.utf8 cs).length := by
  rw [← toList_bytes, Text.toList_eq_data, Array.length_toList, ByteArray.size_data]

/-- The bytes of a text need not be packed to be read. -/
theorem parse_ofList (chunk : Bytes) (cs : List Char) :
    Lua.Parser.parse chunk (Text.bytes (String.ofList cs)) = parseLexemes chunk (scanChars cs) := by
  have hscan : Lua.Lexer.scan (Text.bytes (String.ofList cs)) = scanChars cs := by
    rw [Lua.Lexer.scan, toList_bytes, size_bytes]
    rfl
  rw [← hscan]
  rfl

/-! ## What it compiles to -/

noncomputable section

/-- The script has no floats in it, so nothing asks this instance. -/
local instance decEqFloat : DecidableEq Float := fun _ _ => Classical.propDecidable _

deriving instance DecidableEq for Value
deriving instance DecidableEq for Operand
deriving instance DecidableEq for Origin
deriving instance DecidableEq for Instr
deriving instance DecidableEq for Proto
deriving instance DecidableEq for Image

set_option maxRecDepth 20000 in
/-- The characters of the script: no compiled code, but the text of the code above. -/
theorem sandbox_chars : ∃ cs, builtinSandbox = String.ofList cs ∧
    (Text.utf8 cs).head? ≠ some 0x1B ∧
    (parseLexemes sandboxChunk (scanChars cs)).toOption.map Lua.Compiler.compile =
      some sandboxImage := by
  refine ⟨_, rfl, ?_, ?_⟩
  · decide +kernel
  · decide +kernel

end

/-! ## Loading it -/

theorem isBinary_eq (source : Bytes) :
    Lua.Library.isBinary source = decide (source.toList.head? = some 0x1B) := by
  obtain ⟨⟨bytes⟩⟩ := source
  rw [Text.toList_eq_data]
  cases bytes with
  | nil => rfl
  | cons b bytes =>
    change decide (bytes.length + 1 ≠ 0 ∧ b = 0x1B) = decide (some b = some 0x1B)
    simp

/-- The heap once the script is loaded: a variable for the environment, and the main function. -/
def loadedSandbox (h : Lua.Heap) : Lua.Heap :=
  ((h.newCell (.table h.globals)).2.newClosure ⟨sandboxImage, sandboxProto, #[h.cells.size]⟩).2

/-- A text loads if its characters are a program. -/
theorem loadSource_ofList {chunk : Bytes} {cs : List Char} {image : Image} {proto : Proto}
    (hhead : (Text.utf8 cs).head? ≠ some 0x1B)
    (himage : (parseLexemes chunk (scanChars cs)).toOption.map Lua.Compiler.compile = some image)
    (hback : image.protos.back? = some proto) (h : Lua.Heap) :
    Lua.Library.loadSource chunk (Text.bytes (String.ofList cs)) none h =
      (.ok (.closure h.closures.size), ((h.newCell (.table h.globals)).2.newClosure
        ⟨image, proto, proto.captures.map fun _ => h.cells.size⟩).2) := by
  have hbinary : Lua.Library.isBinary (Text.bytes (String.ofList cs)) = false := by
    rw [isBinary_eq, toList_bytes]
    exact decide_eq_false hhead
  rw [← parse_ofList] at himage
  unfold Lua.Library.loadSource
  rw [hbinary]
  cases hparse : Lua.Parser.parse chunk (Text.bytes (String.ofList cs)) with
  | error e =>
    rw [hparse] at himage
    cases himage
  | ok program =>
    rw [hparse] at himage
    have hcompiled : Lua.Compiler.compile program = image := Option.some.inj himage
    simp only [hcompiled, hback, Bool.false_eq_true, if_false, Option.getD_none]
    rfl

theorem loadSource_sandbox (h : Lua.Heap) :
    Lua.Library.loadSource sandboxChunk (Text.bytes builtinSandbox) none h =
      (.ok (.closure h.closures.size), loadedSandbox h) := by
  obtain ⟨cs, htext, hhead, hcompiled⟩ := sandbox_chars
  have hcaptured : sandboxProto.captures.map (fun _ => h.cells.size) = #[h.cells.size] := by
    simp [sandboxProto]
  have hloaded := loadSource_ofList hhead hcompiled (by rfl : sandboxImage.protos.back? = some sandboxProto) h
  rw [htext, hloaded, hcaptured]
  rfl

end ScriptWarden.Script
