/-!
Places in source text. Lines and columns count from one and columns count characters; offsets count
bytes of the UTF-8 encoding from zero.
-/

namespace LineScript

/-- The length of a text in UTF-8. -/
def byteLength (text : List Char) : Nat :=
  text.foldr (fun c length => c.utf8Size + length) 0

@[simp] theorem byteLength_nil : byteLength [] = 0 := rfl

@[simp] theorem byteLength_cons (c : Char) (text : List Char) :
    byteLength (c :: text) = c.utf8Size + byteLength text := rfl

@[simp] theorem byteLength_append (front back : List Char) :
    byteLength (front ++ back) = byteLength front + byteLength back := by
  induction front with
  | nil => exact (Nat.zero_add _).symm
  | cons c front ih => rw [List.cons_append, byteLength_cons, byteLength_cons, ih, Nat.add_assoc]

structure Position where
  file : String
  line : Nat
  column : Nat
  offset : Nat
deriving DecidableEq, Repr

namespace Position

def start (file : String) : Position :=
  ⟨file, 1, 1, 0⟩

/-- The place after one character: a line feed starts a line, every other character takes a
column. -/
def next (position : Position) (c : Char) : Position :=
  if c = '\n' then
    ⟨position.file, position.line + 1, 1, position.offset + c.utf8Size⟩
  else
    ⟨position.file, position.line, position.column + 1, position.offset + c.utf8Size⟩

def after (position : Position) (passed : List Char) : Position :=
  passed.foldl next position

@[simp] theorem after_nil (position : Position) : position.after [] = position := rfl

@[simp] theorem after_cons (position : Position) (c : Char) (passed : List Char) :
    position.after (c :: passed) = (position.next c).after passed := rfl

theorem after_append (position : Position) (front back : List Char) :
    position.after (front ++ back) = (position.after front).after back :=
  List.foldl_append

@[simp] theorem file_after (position : Position) (passed : List Char) :
    (position.after passed).file = position.file := by
  induction passed generalizing position with
  | nil => rfl
  | cons c passed ih =>
      rw [after_cons, ih, next]
      split <;> rfl

theorem offset_after (position : Position) (passed : List Char) :
    (position.after passed).offset = position.offset + byteLength passed := by
  induction passed generalizing position with
  | nil => rfl
  | cons c passed ih =>
      rw [after_cons, ih, next, byteLength_cons]
      split <;> exact Nat.add_assoc _ _ _

end Position
end LineScript
