namespace ErrorML

def byteLength (text : List Char) : Nat :=
  text.foldl (fun bytes c => bytes + c.utf8Size) 0

private theorem foldl_utf8Size (text : List Char) (bytes : Nat) :
    text.foldl (fun bytes c => bytes + c.utf8Size) bytes = bytes + byteLength text := by
  induction text generalizing bytes with
  | nil => rfl
  | cons c text ih =>
    simp only [byteLength, List.foldl_cons] at ih ⊢
    rw [ih, ih (0 + c.utf8Size)]
    omega

@[simp] theorem byteLength_nil : byteLength [] = 0 := rfl

@[simp] theorem byteLength_cons (c : Char) (text : List Char) :
    byteLength (c :: text) = c.utf8Size + byteLength text := by
  rw [byteLength, List.foldl_cons, foldl_utf8Size]
  omega

@[simp] theorem byteLength_append (front back : List Char) :
    byteLength (front ++ back) = byteLength front + byteLength back := by
  induction front with
  | nil => simp
  | cons c front ih => simp [ih, Nat.add_assoc]

theorem length_le_byteLength (text : List Char) : text.length ≤ byteLength text := by
  induction text with
  | nil => exact Nat.le_refl 0
  | cons c text ih =>
    rw [List.length_cons, byteLength_cons]
    have positive := c.utf8Size_pos
    omega

/-- A line and a column, both counted from 1. Columns count characters, whatever their size. -/
structure Position where
  line : Nat
  column : Nat
deriving DecidableEq

namespace Position

def start : Position := ⟨1, 1⟩

def advance (p : Position) (c : Char) : Position :=
  if c = '\n' then ⟨p.line + 1, 1⟩ else ⟨p.line, p.column + 1⟩

/-- The position `offset` bytes after `p`. An offset inside a character belongs to no position and
gives the end of the text, as does an offset past the end. -/
def locateFrom (p : Position) (offset : Nat) : List Char → Position
  | [] => p
  | c :: text =>
    if offset = 0 then p
    else if c.utf8Size ≤ offset then locateFrom (p.advance c) (offset - c.utf8Size) text
    else (c :: text).foldl advance p

def locate (source : List Char) (offset : Nat) : Position :=
  start.locateFrom offset source

def text (p : Position) : String :=
  toString p.line ++ ":" ++ toString p.column

theorem locateFrom_append (p : Position) (front back : List Char) :
    p.locateFrom (byteLength front) (front ++ back) = front.foldl advance p := by
  induction front generalizing p with
  | nil => cases back <;> simp [locateFrom]
  | cons c front ih =>
    have positive : c.utf8Size ≠ 0 := Nat.ne_of_gt c.utf8Size_pos
    simp [locateFrom, positive, ih]

theorem locateFrom_of_le (p : Position) {source : List Char} {offset : Nat}
    (h : byteLength source ≤ offset) : p.locateFrom offset source = source.foldl advance p := by
  induction source generalizing p offset with
  | nil => rfl
  | cons c source ih =>
    rw [byteLength_cons] at h
    have positive := c.utf8Size_pos
    have fits : c.utf8Size ≤ offset := by omega
    have rest : byteLength source ≤ offset - c.utf8Size := by omega
    simp [locateFrom, fits, ih _ rest, show offset ≠ 0 by omega]

theorem locate_append (front back : List Char) :
    locate (front ++ back) (byteLength front) = front.foldl advance start :=
  locateFrom_append start front back

theorem locate_of_le {source : List Char} {offset : Nat} (h : byteLength source ≤ offset) :
    locate source offset = source.foldl advance start :=
  locateFrom_of_le start h

end Position

end ErrorML
