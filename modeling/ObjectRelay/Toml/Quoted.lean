import ObjectRelay.Text.Digits

namespace ObjectRelay.Toml.Quoted

/-- What may stand in a comment, and between quotation marks without an
escape. -/
def isPlain (character : Char) : Bool :=
  character = '\t' || (' ' ≤ character && character ≠ '\x7f')

def scalar? (digits : List Char) : Option Char :=
  let code := Text.digitsValue 16 digits
  if digits.all (Text.isDigit 16) ∧ code.isValidChar then some (Char.ofNat code)
  else none

def escaped? : Char → Option Char
  | 'b' => some '\x08'
  | 't' => some '\t'
  | 'n' => some '\n'
  | 'f' => some '\x0c'
  | 'r' => some '\r'
  | '"' => some '"'
  | '\\' => some '\\'
  | _ => none

/-- What may stand in a key without quotation marks. -/
def isBare (character : Char) : Bool :=
  character.isAlphanum || character = '-' || character = '_'

abbrev Read := Option (List Char × List Char)

def prepend (character : Char) (read : Read) : Read :=
  read.map fun (text, rest) => (character :: text, rest)

def literalLine? : List Char → Read
  | [] => none
  | '\'' :: rest => some ([], rest)
  | character :: rest =>
      if isPlain character then prepend character (literalLine? rest) else none

/-- Up to two marks may stand right before the three that close the text. -/
def literalLines? : List Char → Read
  | [] => none
  | '\'' :: '\'' :: '\'' :: '\'' :: '\'' :: rest => some (['\'', '\''], rest)
  | '\'' :: '\'' :: '\'' :: '\'' :: rest => some (['\''], rest)
  | '\'' :: '\'' :: '\'' :: rest => some ([], rest)
  | '\r' :: '\n' :: rest => prepend '\n' (literalLines? rest)
  | character :: rest =>
      if isPlain character ∨
        character = '\n' then prepend character (literalLines? rest)
      else none

def basicLine? : List Char → Read
  | [] => none
  | '"' :: rest => some ([], rest)
  | '\\' :: 'u' :: a :: b :: c :: d :: rest =>
      (scalar? [a, b, c, d]).bind fun character =>
        prepend character (basicLine? rest)
  | '\\' :: 'U' :: a :: b :: c :: d :: e :: f :: g :: h :: rest =>
      (scalar? [a, b, c, d, e, f, g, h]).bind fun character =>
        prepend character (basicLine? rest)
  | '\\' :: mark :: rest =>
      (escaped? mark).bind fun character => prepend character (basicLine? rest)
  | character :: rest =>
      if isPlain character ∧
        character ≠ '\\' then prepend character (basicLine? rest)
      else none

/-- What a backslash at the end of a line leaves out: the line's end, then all
blanks. -/
inductive Fold where
  | none
  | line
  | blanks
deriving DecidableEq

def basicLines? : Fold → List Char → Read
  | _, [] => Option.none
  | .line, '\n' :: rest => basicLines? .blanks rest
  | .line, '\r' :: '\n' :: rest => basicLines? .blanks rest
  | .line, character :: rest =>
      if character = ' ' ∨ character = '\t' then basicLines? .line rest
      else Option.none
  | .blanks, ' ' :: rest => basicLines? .blanks rest
  | .blanks, '\t' :: rest => basicLines? .blanks rest
  | .blanks, '\n' :: rest => basicLines? .blanks rest
  | .blanks, '\r' :: '\n' :: rest => basicLines? .blanks rest
  | _, '"' :: '"' :: '"' :: '"' :: '"' :: rest => some (['"', '"'], rest)
  | _, '"' :: '"' :: '"' :: '"' :: rest => some (['"'], rest)
  | _, '"' :: '"' :: '"' :: rest => some ([], rest)
  | _, '\r' :: '\n' :: rest => prepend '\n' (basicLines? .none rest)
  | _, '\\' :: 'u' :: a :: b :: c :: d :: rest =>
      (scalar? [a, b, c, d]).bind fun character =>
        prepend character (basicLines? .none rest)
  | _, '\\' :: 'U' :: a :: b :: c :: d :: e :: f :: g :: h :: rest =>
      (scalar? [a, b, c, d, e, f, g, h]).bind fun character =>
        prepend character (basicLines? .none rest)
  | _, '\\' :: '\n' :: rest => basicLines? .blanks rest
  | _, '\\' :: '\r' :: '\n' :: rest => basicLines? .blanks rest
  | _, '\\' :: mark :: rest =>
      if mark = ' ' ∨ mark = '\t' then basicLines? .line rest
      else (escaped? mark).bind fun character =>
        prepend character (basicLines? .none rest)
  | _, character :: rest =>
      if (isPlain character ∧ character ≠ '\\') ∨ character = '\n' then
        prepend character (basicLines? .none rest)
      else Option.none

/-- A line's end right behind the opening marks is not part of the text. -/
def trimStart : List Char → List Char
  | '\n' :: rest => rest
  | '\r' :: '\n' :: rest => rest
  | text => text

def line? : List Char → Read
  | '"' :: rest => basicLine? rest
  | '\'' :: rest => literalLine? rest
  | _ => none

def read? : List Char → Read
  | '"' :: '"' :: '"' :: rest => basicLines? .none (trimStart rest)
  | '\'' :: '\'' :: '\'' :: rest => literalLines? (trimStart rest)
  | text => line? text

def longestRun (mark : Char) (text : List Char) : Nat :=
  (text.foldl
    (fun ((longest : Nat), (current : Nat)) character =>
      let current := if character = mark then current + 1 else 0
      (max longest current, current))
    (0, 0)).1

def needsEscape (character : Char) : Bool :=
  !isPlain character && character ≠ '\n'

def escape (character : Char) : List Char :=
  match character with
  | '\x08' => ['\\', 'b']
  | '\t' => ['\\', 't']
  | '\n' => ['\\', 'n']
  | '\x0c' => ['\\', 'f']
  | '\r' => ['\\', 'r']
  | '\\' => ['\\', '\\']
  | _ =>
      if isPlain character then [character]
      else
        let digits := Nat.toDigits 16 character.toNat
        '\\' :: 'u' ::
          (List.replicate (4 - digits.length) '0' ++ digits.map Char.toUpper)

/-- Writes text between basic marks: more marks in a row than `most` are
escaped. -/
def escapeAll (lines : Bool) (most : Nat) : Nat → List Char → List Char
  | _, [] => []
  | run, '"' :: rest =>
      if most ≤ run then '\\' :: '"' :: escapeAll lines most 0 rest
      else '"' :: escapeAll lines most (run + 1) rest
  | _, character :: rest =>
      (if lines && character = '\n' then ['\n'] else escape character) ++
        escapeAll lines most 0 rest

def print (text : List Char) : List Char :=
  let escapes := text.any needsEscape
  let lines := text.contains '\n'
  let start := if lines then ['\n'] else []
  let slashes := text.contains '\\'
  let basicRun := longestRun '"' text
  let literalRun := longestRun '\'' text
  if !escapes && !slashes && basicRun = 0 && !lines then
    ['"'] ++ escapeAll false 0 0 text ++ ['"']
  else if !escapes && literalRun = 0 && !lines then ['\''] ++ text ++ ['\'']
  else if (!escapes && !slashes && basicRun ≤ 2) ||
    (lines && (escapes || 2 < literalRun)) then
    ['"', '"', '"'] ++ start ++ escapeAll true 2 0 text ++ ['"', '"', '"']
  else if !escapes && literalRun ≤ 2 then
    ['\'', '\'', '\''] ++ start ++ text ++ ['\'', '\'', '\'']
  else ['"'] ++ escapeAll false 0 0 text ++ ['"']

end ObjectRelay.Toml.Quoted
