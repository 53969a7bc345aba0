import ObjectRelay.Toml.Scalar

namespace ObjectRelay.Toml

inductive Statement where
  | entry (key : List String) (value : Value)
  | table (path : List String)
  | tables (path : List String)

namespace Document

def skipSpaces (text : List Char) : List Char :=
  text.dropWhile fun character => character = ' ' || character = '\t'

def keyPart? (text : List Char) : Option (String × List Char) :=
  match Quoted.line? text with
  | some (part, rest) => some (String.ofList part, rest)
  | none =>
      let part := text.takeWhile Quoted.isBare
      if part.isEmpty then none
      else some (String.ofList part, text.drop part.length)

/-- Keys have fewer parts, and values fewer levels, than this. -/
def nestingLimit : Nat := 80

/-- A key of at most so many parts, with dots between them. -/
def keyParts? : Nat → List Char → Option (List String × List Char)
  | 0, _ => none
  | parts + 1, text => do
      let (part, text) ← keyPart? (skipSpaces text)
      match skipSpaces text with
      | '.' :: rest =>
          let (more, rest) ← keyParts? parts rest
          return (part :: more, rest)
      | rest => return ([part], rest)

def key? : List Char → Option (List String × List Char) :=
  keyParts? (nestingLimit - 1)

/-- Skips blanks, the ends of lines and, while inside one, a comment. -/
def skipLines? : Bool → List Char → Option (List Char)
  | _, [] => none
  | _, '\n' :: rest => skipLines? false rest
  | _, '\r' :: '\n' :: rest => skipLines? false rest
  | true, character :: rest =>
      if Quoted.isPlain character then skipLines? true rest else none
  | false, character :: rest =>
      if character = '#' then skipLines? true rest
      else if character = ' ' ∨ character = '\t' then skipLines? false rest
      else if character = '\r' then none
      else some (character :: rest)

def nextLine? (text : List Char) : Option (List Char) :=
  let text := match skipSpaces text with
    | '#' :: rest => rest.dropWhile Quoted.isPlain
    | rest => rest
  match text with
  | [] => some []
  | '\n' :: rest => some rest
  | '\r' :: '\n' :: rest => some rest
  | _ => none

/-- The values of an array up to its closing bracket; a comma may follow the
last one.  Each value takes up some of the text, whose length bounds their
number. -/
def items? (value? : List Char → Option (Value × List Char)) :
    Nat → List Char → Option (List Value × List Char)
  | 0, _ => none
  | most + 1, text => do
      match ← skipLines? false text with
      | ']' :: rest => return ([], rest)
      | text =>
          let (value, text) ← value? text
          match ← skipLines? false text with
          | ']' :: rest => return ([value], rest)
          | ',' :: rest =>
              let (values, rest) ← items? value? most rest
              return (value :: values, rest)
          | _ => none

def entry? (value? : List Char → Option (Value × List Char))
    (text : List Char) : Option (List String × Value × List Char) := do
  let (key, text) ← key? text
  let text ← Scalar.expect? '=' text
  let (value, text) ← value? (skipSpaces text)
  return (key, value, text)

def braced? (value? : List Char → Option (Value × List Char)) :
    Nat → Entries → List Char → Option (Entries × List Char)
  | 0, _, _ => none
  | most + 1, entries, text => do
      let (key, value, text) ← entry? value? text
      let entries ← entries.define? value key
      match skipSpaces text with
      | '}' :: rest => return (entries, rest)
      | ',' :: rest => braced? value? most entries rest
      | _ => none

/-- A value in which arrays and tables are nested at most so deep. -/
def value? : Nat → List Char → Option (Value × List Char)
  | _, '"' :: rest =>
      (Quoted.read? ('"' :: rest)).map fun (text, rest) =>
        (.text (String.ofList text), rest)
  | _, '\'' :: rest =>
      (Quoted.read? ('\'' :: rest)).map fun (text, rest) =>
        (.text (String.ofList text), rest)
  | levels + 1, '[' :: rest =>
      (items? (value? levels) (rest.length + 1) rest).map fun (values, rest) =>
        (.array values, rest)
  | levels + 1, '{' :: rest =>
      match skipSpaces rest with
      | '}' :: rest => some (.table .braces [], rest)
      | rest =>
          (braced? (value? levels) (rest.length + 1) [] rest).map
            fun (entries, rest) =>
            (.table .braces entries, rest)
  | _, text => Scalar.read? text

def header? (text : List Char) : Option (Statement × List Char) :=
  match text with
  | '[' :: rest => do
      let (path, rest) ← key? rest
      let rest ← Scalar.expect? ']' rest
      let rest ← Scalar.expect? ']' rest
      return (.tables path, rest)
  | _ => do
      let (path, rest) ← key? text
      let rest ← Scalar.expect? ']' rest
      return (.table path, rest)

/-- Each statement takes up some of the text, whose length bounds their
number. -/
def statements? : Nat → List Char → Option (List Statement)
  | 0, _ => none
  | most + 1, text =>
      match skipSpaces text with
      | [] => some []
      | '#' :: rest => nextLine? ('#' :: rest) >>= statements? most
      | '\n' :: rest => statements? most rest
      | '\r' :: '\n' :: rest => statements? most rest
      | '[' :: rest => do
          let (statement, rest) ← header? rest
          let more ← statements? most (← nextLine? rest)
          return statement :: more
      | text => do
          let (key, value, rest) ← entry? (value? (nestingLimit - 1)) text
          let more ← statements? most (← nextLine? rest)
          return .entry key value :: more

/-- Adds a statement to the tables so far, of which the last header opened
one. -/
def add? : Entries × List String → Statement → Option (Entries × List String)
  | (entries, path), .entry key value =>
      (entries.within? (·.define? value key) path).map ((·, path))
  | (entries, _), .table path => (entries.openTable? path).map ((·, path))
  | (entries, _), .tables path => (entries.appendTable? path).map ((·, path))

/-- A mark of the byte order may stand at the front. -/
def read? (text : String) : Option Entries := do
  let text := match text.toList with
    | '\ufeff' :: rest => rest
    | text => text
  let statements ← statements? (text.length + 1) text
  let (entries, _) ← statements.foldlM add? ([], [])
  return entries

end Document

end ObjectRelay.Toml
