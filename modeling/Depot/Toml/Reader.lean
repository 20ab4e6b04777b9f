/-!
# Reading TOML text

A reader takes a value off the front of the remaining characters or refuses
them. This module has the readers that know single characters only: spaces,
line breaks, comments and marks.
-/

namespace Depot.Toml

/-- Takes a value off the front of the remaining characters, or refuses. -/
abbrev Reader (α : Type) := StateT (List Char) Option α

namespace Reader

/-- The next character, which stays. -/
def peek : Reader (Option Char) := return (← get).head?

/-- Takes `mark` if it comes next, and says whether it did. -/
def accept (mark : Char) : Reader Bool := do
  match ← get with
  | character :: rest =>
    if character = mark then
      set rest
      return true
    else return false
  | [] => return false

/-- Takes `mark`, which must come next. -/
def demand (mark : Char) : Reader Unit := do
  if ← accept mark then return () else failure

/-- Takes all characters up to the first that does not satisfy `belongs`. -/
def takeWhile (belongs : Char → Bool) : Reader (List Char) := do
  let characters ← get
  set (characters.dropWhile belongs)
  return characters.takeWhile belongs

/-- Takes `marks` if they come next, and says whether they did. -/
def acceptAll (marks : List Char) : Reader Bool := do
  let characters ← get
  if marks.isPrefixOf characters then
    set (characters.drop marks.length)
    return true
  else return false

/-- Spaces and tabs. -/
def isBlank (character : Char) : Bool := character = ' ' || character = '\t'

/-- Takes spaces and tabs. -/
def blanks : Reader Unit := do
  let _ ← takeWhile isBlank

/-- Takes a line break if one comes next, and says whether one did. -/
def lineBreak : Reader Bool := do
  if ← accept '\n' then return true else acceptAll ['\r', '\n']

/-- Whether a character may stand in a text or a comment as it is: it is a tab
or no control character. -/
def isPlain (character : Char) : Bool :=
  character = '\t' || (' ' ≤ character && character != '\x7f')

/-- Takes a comment if one comes next. -/
def comment : Reader Unit := do
  if (← peek) = some '#' then
    let _ ← takeWhile isPlain

/-- Takes the rest of a line, which must hold nothing but a comment. -/
def lineEnd : Reader Unit := do
  blanks
  comment
  unless ← lineBreak do
    if (← peek).isSome then failure

/-- What follows blanks, line breaks and comments; `inComment` says that a comment is
being passed. -/
def afterSpacing (inComment : Bool) : List Char → List Char
  | '\r' :: '\n' :: rest => afterSpacing false rest
  | [] => []
  | character :: rest =>
    if character = '\n' then afterSpacing false rest
    else if inComment then
      if isPlain character then afterSpacing true rest else character :: rest
    else if character = '#' then afterSpacing true rest
    else if isBlank character then afterSpacing false rest
    else character :: rest

/-- Takes blanks, line breaks and comments. -/
def spacing : Reader Unit := modify (afterSpacing false)

end Reader

end Depot.Toml
