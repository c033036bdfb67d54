namespace ErrorML.Terminal

def isSpacing (c : Char) : Bool :=
  c == '\t' || c == '\n' || c == '\x0C' || c == '\r'

def isVisible (c : Char) : Bool :=
  isSpacing c || (decide (32 ≤ c.toNat) && c.toNat != 127)

inductive Place where
  | outside
  | escape
  | lengthened
  | parameters
  | device
  | deviceParameters
  | deviceFinal
  | hidden
  | command
deriving DecidableEq

def holdsTerminator (c : Char) : Bool :=
  (String.utf8EncodeChar c).contains 0x9C

namespace Place

def allowsSpacing : Place → Bool
  | .outside | .escape | .lengthened | .parameters => true
  | .device | .deviceParameters | .deviceFinal | .hidden | .command => false

def advancePrintable (place : Place) (c : Char) : Place :=
  match place with
  | .outside => .outside
  | .escape =>
    if c < '0' then .lengthened
    else if c = '[' then .parameters
    else if c = ']' then .command
    else if c = 'P' then .device
    else if c = 'X' ∨ c = '^' ∨ c = '_' then .hidden
    else .outside
  | .lengthened => if c < '0' then .lengthened else .outside
  | .parameters => if c < '@' then .parameters else .outside
  | .device =>
    if c < '0' then .deviceFinal else if c < '@' then .deviceParameters else .hidden
  | .deviceParameters =>
    if c < '0' then .deviceFinal else if c < '<' then .deviceParameters else .hidden
  | .deviceFinal => if c < '0' then .deviceFinal else .hidden
  | .hidden => .hidden
  | .command => .command

/-- The place after a character that is not shown. An escape character opens a new sequence
wherever it stands, and a cancel or substitute character leaves every sequence. Sequences are made
of ASCII characters; others go unnoticed in them, but for the terminator in a hidden string. -/
def advance (place : Place) (c : Char) : Place :=
  if c = '\x1B' then .escape
  else if c = '\x18' ∨ c = '\x1A' then .outside
  else if c.toNat < 32 ∨ c.toNat = 127 then
    if place = .command ∧ c = '\x07' then .outside else place
  else if c.toNat < 128 then place.advancePrintable c
  else if place = .hidden ∧ holdsTerminator c then .outside
  else place

end Place

def visibleFrom : Place → List Char → List Char
  | _, [] => []
  | place, c :: text =>
    if (place = .outside ∧ isVisible c) ∨ (place.allowsSpacing ∧ isSpacing c) then
      c :: visibleFrom .outside text
    else visibleFrom (place.advance c) text

def visible (text : List Char) : List Char := visibleFrom .outside text

private theorem isVisible_of_mem_visibleFrom {place : Place} {text : List Char} :
    ∀ c ∈ visibleFrom place text, isVisible c := by
  induction text generalizing place with
  | nil => simp [visibleFrom]
  | cons d text ih =>
    intro c member
    unfold visibleFrom at member
    split at member
    next shown =>
      rcases List.mem_cons.mp member with rfl | member
      · rcases shown with ⟨_, shown⟩ | ⟨_, spacing⟩
        · exact shown
        · simp [isVisible, spacing]
      · exact ih c member
    next => exact ih c member

theorem isVisible_of_mem_visible {text : List Char} {c : Char} (h : c ∈ visible text) :
    isVisible c := isVisible_of_mem_visibleFrom c h

theorem visible_eq_self {text : List Char} (h : ∀ c ∈ text, isVisible c) : visible text = text := by
  induction text with
  | nil => rfl
  | cons c text ih =>
    have first := h c List.mem_cons_self
    have rest := ih fun d member => h d (List.mem_cons_of_mem c member)
    simp only [visible] at rest ⊢
    rw [visibleFrom, if_pos (.inl ⟨rfl, first⟩), rest]

end ErrorML.Terminal
