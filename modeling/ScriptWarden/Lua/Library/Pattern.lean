import ScriptWarden.Lua.Value
set_option autoImplicit false

/-!
# Lua: patterns

Matching by backtracking.  Every step of a match leaves a part of the pattern behind, so the length of the
pattern bounds its depth.  How many choices and captures may be open at a time is limited besides.
-/

namespace ScriptWarden.Lua.Pattern

/-! ## Captures -/

/-- How far a capture reaches. -/
inductive Extent where
  | unfinished
  | position
  | length (n : Nat)
  deriving DecidableEq, Repr, Inhabited

/-- A capture: where it begins, and how far it reaches. -/
structure Capture where
  start : Nat
  extent : Extent
  deriving Repr, Inhabited

/-- The largest number of captures. -/
def captureLimit : Nat := 32

/-- How many choices and captures may be open when a match goes on. -/
def nestingLimit : Nat := 199

/-- A match: where it ends, and its captures. -/
structure Match where
  stop : Nat
  captures : Array Capture
  deriving Inhabited

/-- What matching gives: a fault of the pattern, or a match if there is one. -/
abbrev Result := Except String (Option Match)

/-! ## Classes of bytes -/

/-- Does a byte belong to a class named by a letter?  A capital letter is the complement; anything but a
letter of a class stands for itself. -/
def inClass (c letter : UInt8) : Bool :=
  let lower := if 0x41 ≤ letter ∧ letter ≤ 0x5A then letter + 0x20 else letter
  let alpha : Bool := (0x41 ≤ c ∧ c ≤ 0x5A) ∨ (0x61 ≤ c ∧ c ≤ 0x7A)
  let digit : Bool := 0x30 ≤ c ∧ c ≤ 0x39
  let graph : Bool := 0x21 ≤ c ∧ c ≤ 0x7E
  let member? : Option Bool :=
    match Char.ofNat lower.toNat with
    | 'a' => some alpha
    | 'c' => some (c < 0x20 || c == 0x7F)
    | 'd' => some digit
    | 'g' => some graph
    | 'l' => some (0x61 ≤ c ∧ c ≤ 0x7A)
    | 'p' => some (graph && !alpha && !digit)
    | 's' => some (c == 0x20 || (0x09 ≤ c && c ≤ 0x0D))
    | 'u' => some (0x41 ≤ c ∧ c ≤ 0x5A)
    | 'w' => some (alpha || digit)
    | 'x' => some (digit || (0x41 ≤ c && c ≤ 0x46) || (0x61 ≤ c && c ≤ 0x66))
    | _ => none
  match member? with
  | none => letter == c
  | some b => if letter = lower then b else !b

/-- A byte of a pattern or subject; there is a zero behind the end. -/
def byteAt (s : Bytes) (i : Nat) : UInt8 := (s[i]? : Option UInt8).getD 0

/-- The end of a set whose members begin at `p`. -/
def setEnd (pat : Bytes) (fuel p : Nat) : Except String Nat :=
  match fuel with
  | 0 => .error "malformed pattern (missing ']')"
  | fuel + 1 =>
    if pat.size ≤ p then .error "malformed pattern (missing ']')"
    else
      let p := if byteAt pat p = 0x25 ∧ p + 1 < pat.size then p + 2 else p + 1
      if p < pat.size ∧ byteAt pat p = 0x5D then .ok (p + 1) else setEnd pat fuel p

/-- The end of the single class at `p`. -/
def classEnd (pat : Bytes) (p : Nat) : Except String Nat :=
  match byteAt pat p with
  | 0x25 =>
    if pat.size ≤ p + 1 then .error "malformed pattern (ends with '%')" else .ok (p + 2)
  | 0x5B => setEnd pat pat.size (if byteAt pat (p + 1) = 0x5E then p + 2 else p + 1)
  | _ => .ok (p + 1)

/-- Is a byte one of the members of a set from `p` up to `stop`? -/
def inMembers (pat : Bytes) (c : UInt8) (stop fuel p : Nat) : Bool :=
  match fuel with
  | 0 => false
  | fuel + 1 =>
    if stop ≤ p then false
    else if byteAt pat p = 0x25 then
      inClass c (byteAt pat (p + 1)) || inMembers pat c stop fuel (p + 2)
    else if byteAt pat (p + 1) = 0x2D ∧ p + 2 < stop then
      (byteAt pat p ≤ c && c ≤ byteAt pat (p + 2)) || inMembers pat c stop fuel (p + 3)
    else byteAt pat p == c || inMembers pat c stop fuel (p + 1)

/-- Does a byte belong to the set that begins at `p` and whose closing bracket is at `stop`? -/
def inSet (pat : Bytes) (c : UInt8) (p stop : Nat) : Bool :=
  if byteAt pat (p + 1) = 0x5E then !inMembers pat c stop pat.size (p + 2)
  else inMembers pat c stop pat.size (p + 1)

/-- Does the subject have a byte of the class from `p` to `stop` at `s`? -/
def matchesOne (subject pat : Bytes) (s p stop : Nat) : Bool :=
  if subject.size ≤ s then false
  else
    let c := byteAt subject s
    match byteAt pat p with
    | 0x2E => true
    | 0x25 => inClass c (byteAt pat (p + 1))
    | 0x5B => inSet pat c p (stop - 1)
    | x => x == c

/-! ## Matching -/

/-- The end of a balanced part: `depth` brackets are open at `s`. -/
def balancedEnd (subject : Bytes) (opening closing : UInt8) (fuel depth s : Nat) : Option Nat :=
  match fuel with
  | 0 => none
  | fuel + 1 =>
    if subject.size ≤ s then none
    else
      let c := byteAt subject s
      if c = closing then
        if depth ≤ 1 then some (s + 1)
        else balancedEnd subject opening closing fuel (depth - 1) (s + 1)
      else balancedEnd subject opening closing fuel (if c = opening then depth + 1 else depth) (s + 1)

/-- How many bytes of a class there are at `s`. -/
def countRun (subject pat : Bytes) (p stop fuel s : Nat) : Nat :=
  match fuel with
  | 0 => 0
  | fuel + 1 =>
    if matchesOne subject pat s p stop then countRun subject pat p stop fuel (s + 1) + 1 else 0

/-- Go on behind the longest run that lets the rest match. -/
def longest (rest : Nat → Result) (s : Nat) : Nat → Result
  | 0 => rest s
  | n + 1 => do
    match ← rest (s + n + 1) with
    | some m => return some m
    | none => longest rest s n

/-- Go on behind the shortest run that lets the rest match. -/
def shortest (rest : Nat → Result) (one : Nat → Bool) (fuel s : Nat) : Result :=
  match fuel with
  | 0 => .ok none
  | fuel + 1 => do
    match ← rest s with
    | some m => return some m
    | none => if one s then shortest rest one fuel (s + 1) else return none

/-- The last capture that is not finished. -/
def openCapture? (captures : Array Capture) : Option Nat :=
  (List.range captures.size).reverse.find? fun i =>
    (captures[i]?.map (·.extent)) == some .unfinished

/-- A finished capture that the pattern refers to by a digit. -/
def referred (captures : Array Capture) (digit : UInt8) : Except String Capture :=
  let i : Int := digit.toNat - 0x31
  let bad := s!"invalid capture index %{i + 1}"
  if i < 0 then .error bad
  else
    match captures[i.toNat]? with
    | none => .error bad
    | some c => if c.extent = .unfinished then .error bad else .ok c

/-- Match from `s` on with the pattern from `p` on; `fuel` is more than the rest of the pattern, and
`depth` choices and captures may still be opened. -/
def matchFrom (subject pat : Bytes) (fuel depth s p : Nat) (captures : Array Capture) : Result :=
  match fuel with
  | 0 => .error "pattern too complex"
  | fuel + 1 =>
    let nested : Nat → Nat → Array Capture → Result := fun s p captures =>
      match depth with
      | 0 => .error "pattern too complex"
      | depth + 1 => matchFrom subject pat fuel depth s p captures
    let plain : Unit → Result := fun _ => do
      let stop ← classEnd pat p
      let one := fun s => matchesOne subject pat s p stop
      let again := fun s => nested s (stop + 1) captures
      let skip := fun (_ : Unit) => matchFrom subject pat fuel depth s (stop + 1) captures
      let here := one s
      match byteAt pat stop with
      | 0x2A => longest again s (countRun subject pat p stop subject.size s)
      | 0x2B =>
        if here then
          longest again (s + 1) (countRun subject pat p stop subject.size (s + 1))
        else return none
      | 0x2D => shortest again one (subject.size + 1) s
      | 0x3F =>
        if here then
          match ← again (s + 1) with
          | some m => return some m
          | none => skip ()
        else skip ()
      | _ => if here then matchFrom subject pat fuel depth (s + 1) stop captures else return none
    if pat.size ≤ p then .ok (some ⟨s, captures⟩)
    else
      match byteAt pat p with
      | 0x28 =>
        if captureLimit ≤ captures.size then .error "too many captures"
        else if byteAt pat (p + 1) = 0x29 then
          nested s (p + 2) (captures.push ⟨s, .position⟩)
        else nested s (p + 1) (captures.push ⟨s, .unfinished⟩)
      | 0x29 =>
        match openCapture? captures with
        | none => .error "invalid pattern capture"
        | some i =>
          nested s (p + 1)
            (captures.modify i fun c => { c with extent := .length (s - c.start) })
      | 0x24 =>
        if p + 1 = pat.size then .ok (if s = subject.size then some ⟨s, captures⟩ else none)
        else plain ()
      | 0x25 =>
        let next := byteAt pat (p + 1)
        if next = 0x62 then
          if pat.size < p + 4 then .error "malformed pattern (missing arguments to '%b')"
          else if subject.size ≤ s ∨ byteAt subject s ≠ byteAt pat (p + 2) then .ok none
          else
            match balancedEnd subject (byteAt pat (p + 2)) (byteAt pat (p + 3)) subject.size 1
                (s + 1) with
            | some s => matchFrom subject pat fuel depth s (p + 4) captures
            | none => .ok none
        else if next = 0x66 then
          if byteAt pat (p + 2) ≠ 0x5B then .error "missing '[' after '%f' in pattern"
          else do
            let stop ← classEnd pat (p + 2)
            let before := if s = 0 then 0 else byteAt subject (s - 1)
            if !inSet pat before (p + 2) (stop - 1) && inSet pat (byteAt subject s) (p + 2) (stop - 1)
            then matchFrom subject pat fuel depth s stop captures
            else return none
        else if 0x30 ≤ next ∧ next ≤ 0x39 then do
          let c ← referred captures next
          match c.extent with
          | .length n =>
            if n ≤ subject.size - s ∧ subject.extract c.start (c.start + n) = subject.extract s (s + n)
            then matchFrom subject pat fuel depth (s + n) (p + 2) captures
            else return none
          | _ => return none
        else plain ()
      | _ => plain ()

/-- Match the pattern from `p` on at a place of the subject. -/
def matchAt (subject pat : Bytes) (s p : Nat) : Result :=
  matchFrom subject pat (pat.size + 1) nestingLimit s p #[]

/-- The first match at `s` or later; `fuel` counts the places left. -/
def search (subject pat : Bytes) (p fuel s : Nat) : Except String (Option (Nat × Match)) :=
  match fuel with
  | 0 => .ok none
  | fuel + 1 => do
    match ← matchAt subject pat s p with
    | some m => return some (s, m)
    | none => search subject pat p fuel (s + 1)

/-! ## Plain text -/

/-- Bytes with a meaning in patterns. -/
def isSpecial (c : UInt8) : Bool :=
  [0x5E, 0x24, 0x2A, 0x2B, 0x3F, 0x2E, 0x28, 0x29, 0x5B, 0x5D, 0x25, 0x2D].contains c

/-- Is a pattern plain text? -/
def isPlain (pat : Bytes) : Bool := !pat.toList.any isSpecial

/-- Is a text found at a place? -/
def occursAt (subject text : Bytes) (s : Nat) : Bool :=
  s + text.size ≤ subject.size && subject.extract s (s + text.size) == text

/-- The first place of a text at `s` or later; `fuel` counts the places left. -/
def searchText (subject text : Bytes) (fuel s : Nat) : Option Nat :=
  match fuel with
  | 0 => none
  | fuel + 1 =>
    if occursAt subject text s then some s else searchText subject text fuel (s + 1)

/-! ## Values of captures -/

/-- The value of a capture of a match from `start` on; the first one is the whole match if there is
none. -/
def captureValue (subject : Bytes) (start : Nat) (m : Match) (i : Nat) : Except String Value :=
  match m.captures[i]? with
  | none =>
    if i = 0 then .ok (.str (subject.extract start m.stop))
    else .error s!"invalid capture index %{i + 1} in replacement string"
  | some c =>
    match c.extent with
    | .unfinished => .error "unfinished capture"
    | .position => .ok (.nat (c.start + 1))
    | .length n => .ok (.str (subject.extract c.start (c.start + n)))

/-- The values of all captures; a match without any counts as one if `whole`. -/
def captureValues (subject : Bytes) (start : Nat) (m : Match) (whole : Bool) :
    Except String (List Value) :=
  let n := if m.captures.size = 0 ∧ whole then 1 else m.captures.size
  (List.range n).mapM (captureValue subject start m)

end ScriptWarden.Lua.Pattern
