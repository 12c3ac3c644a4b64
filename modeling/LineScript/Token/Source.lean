import LineScript.Lexeme

/-!
The tokens of a source text. Spaces, tabs and carriage returns separate lexemes and are dropped; a
line feed ends a statement, and so does the end of a source whose last line has none.
-/

namespace LineScript

structure LexicalError where
  fault : LexicalFault
  position : Position
deriving DecidableEq, Repr

namespace LexicalError

def message (error : LexicalError) : String :=
  error.fault.message

def hint? (error : LexicalError) : Option String :=
  error.fault.hint?

end LexicalError

namespace Token

def ofLexeme (position : Position) (lexeme : Lexeme) : Token :=
  ⟨lexeme.kind, lexeme.text, byteLength lexeme.spelling, position⟩

/-- Reads on from `position`. `tokens` holds, in reverse, what was read before. -/
def readFrom (tokens : List Token) (position : Position) (source : List Char) :
    Except LexicalError (List Token) :=
  match source with
  | [] => .ok tokens.reverse
  | c :: rest =>
      if Lexeme.isBlank c then readFrom tokens (position.next c) rest
      else
        match _scanned : Lexeme.scan c rest with
        | .error fault => .error ⟨fault, position⟩
        | .ok (lexeme, remaining) =>
            readFrom (ofLexeme position lexeme :: tokens) (position.after lexeme.spelling) remaining
termination_by source.length
decreasing_by
  · simp
  · have := Lexeme.scan_remaining_length _scanned
    simp only [List.length_cons]
    omega

/-- Ends the last statement, if the tokens leave it open, at the end of the source. -/
def close (tokens : List Token) (theEnd : Position) : List Token :=
  match tokens.getLast? with
  | some last =>
      if last.isInLine then tokens ++ [⟨.endOfStatement, "", 0, theEnd⟩] else tokens
  | none => []

def readAll (source file : String) : Except LexicalError (List Token) :=
  let start := Position.start file
  (readFrom [] start source.toList).map fun tokens => close tokens (start.after source.toList)

end Token
end LineScript
