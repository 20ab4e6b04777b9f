import Depot.Text.Hexadecimal
import Depot.Toml.Reader

/-!
# Quoted text in TOML

The four ways to quote a text: in double or single quotes, on one line or in
triple quotes on several. Only double quotes know escapes. In triple quotes a
line break right after the opening is dropped, every line break reads as a line
feed, and one or two quotes may stand before the closing ones.
-/

namespace Depot.Toml

/-- The character of a code point, if it is one that text can hold. -/
def codePoint? (number : Nat) : Option Char :=
  if number.isValidChar then some (Char.ofNat number) else none

/-- The character that a code point in `count` hexadecimal digits stands for. -/
def numberedEscape? (count : Nat) (characters : List Char) : Option Char :=
  let digits := characters.take count
  if digits.length = count then (Hexadecimal.read? digits).bind codePoint? else none

/-- The character that an escape stands for, and how many characters it takes
after the backslash. -/
def escape? : List Char → Option (Char × Nat)
  | 'b' :: _ => some ('\x08', 1)
  | 't' :: _ => some ('\t', 1)
  | 'n' :: _ => some ('\n', 1)
  | 'f' :: _ => some ('\x0c', 1)
  | 'r' :: _ => some ('\r', 1)
  | '"' :: _ => some ('"', 1)
  | '\\' :: _ => some ('\\', 1)
  | 'u' :: rest => (numberedEscape? 4 rest).map (·, 5)
  | 'U' :: rest => (numberedEscape? 8 rest).map (·, 9)
  | _ => none

/-- The text before the closing double quote of a line, and what follows. -/
def basicLine? : List Char → Option (List Char × List Char)
  | [] => none
  | '"' :: rest => some ([], rest)
  | '\\' :: rest =>
    match escape? rest with
    | none => none
    | some (character, size) =>
      (basicLine? (rest.drop size)).map fun (text, after) => (character :: text, after)
  | character :: rest =>
    if Reader.isPlain character then
      (basicLine? rest).map fun (text, after) => (character :: text, after)
    else none
termination_by characters => characters.length
decreasing_by all_goals simp only [List.length_drop, List.length_cons]; omega

/-- The text before the closing single quote of a line, and what follows. -/
def literalLine? : List Char → Option (List Char × List Char)
  | [] => none
  | '\'' :: rest => some ([], rest)
  | character :: rest =>
    if Reader.isPlain character then
      (literalLine? rest).map fun (text, after) => (character :: text, after)
    else none

/-- Whether nothing but blanks is left of the line. -/
def endsLine (characters : List Char) : Bool :=
  match characters.dropWhile Reader.isBlank with
  | '\n' :: _ => true
  | '\r' :: '\n' :: _ => true
  | _ => false

/-- The text before three closing quotes, and what follows. An escaped line
break is dropped with all blanks and line breaks after it; `trimming` says that
such a stretch is being passed. -/
def basicLines? (trimming : Bool) : List Char → Option (List Char × List Char)
  | [] => none
  | '"' :: '"' :: '"' :: '"' :: '"' :: rest => some (['"', '"'], rest)
  | '"' :: '"' :: '"' :: '"' :: rest => some (['"'], rest)
  | '"' :: '"' :: '"' :: rest => some ([], rest)
  | '\r' :: '\n' :: rest =>
    if trimming then basicLines? true rest
    else (basicLines? false rest).map fun (text, after) => ('\n' :: text, after)
  | '\n' :: rest =>
    if trimming then basicLines? true rest
    else (basicLines? false rest).map fun (text, after) => ('\n' :: text, after)
  | '\\' :: rest =>
    if endsLine rest then basicLines? true rest
    else
      match escape? rest with
      | none => none
      | some (character, size) =>
        (basicLines? false (rest.drop size)).map fun (text, after) => (character :: text, after)
  | character :: rest =>
    if trimming && Reader.isBlank character then basicLines? true rest
    else if Reader.isPlain character then
      (basicLines? false rest).map fun (text, after) => (character :: text, after)
    else none
termination_by characters => characters.length
decreasing_by all_goals simp only [List.length_drop, List.length_cons]; omega

/-- The text before three closing single quotes, and what follows. -/
def literalLines? : List Char → Option (List Char × List Char)
  | [] => none
  | '\'' :: '\'' :: '\'' :: '\'' :: '\'' :: rest => some (['\'', '\''], rest)
  | '\'' :: '\'' :: '\'' :: '\'' :: rest => some (['\''], rest)
  | '\'' :: '\'' :: '\'' :: rest => some ([], rest)
  | '\r' :: '\n' :: rest =>
    (literalLines? rest).map fun (text, after) => ('\n' :: text, after)
  | character :: rest =>
    if character = '\n' || Reader.isPlain character then
      (literalLines? rest).map fun (text, after) => (character :: text, after)
    else none

namespace Reader

/-- Reads on with a function that gives the text and what follows it. -/
def body (read : List Char → Option (List Char × List Char)) : Reader String := do
  let (text, after) ← StateT.lift (read (← get))
  set after
  return String.ofList text

/-- Takes a text in double or single quotes on one line. -/
def quotedLine : Reader String := do
  if ← accept '"' then body basicLine?
  else do
    demand '\''
    body literalLine?

/-- Takes a quoted text of any kind. -/
def quotedText : Reader String := do
  if ← acceptAll ['"', '"', '"'] then
    let _ ← lineBreak
    body (basicLines? false)
  else if ← acceptAll ['\'', '\'', '\''] then
    let _ ← lineBreak
    body literalLines?
  else quotedLine

end Reader

end Depot.Toml
