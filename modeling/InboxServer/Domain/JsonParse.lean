import InboxServer.Domain.JsonLiteral

/-!
# What kind of value `JSON.parse` returns

A reader of JSON that keeps of a value whether it is a string, an array or something else.
-/

namespace InboxServer.Json

/-- `typeof value === "string"`, `Array.isArray(value)`, or neither. -/
inductive ParsedKind where
  | string | array | other
  deriving DecidableEq

/-- A non-empty run of digits. -/
def readDigits (text : List Char) : Option (List Char) :=
  if (text.takeWhile Char.isDigit).isEmpty then none else some (text.dropWhile Char.isDigit)

def readExponent : List Char → Option (List Char)
  | c :: rest =>
    if c = 'e' || c = 'E' then
      match rest with
      | '+' :: rest | '-' :: rest => readDigits rest
      | rest => readDigits rest
    else some (c :: rest)
  | [] => some []

def readFraction : List Char → Option (List Char)
  | '.' :: rest => (readDigits rest).bind readExponent
  | rest => readExponent rest

/-- A number up to its end; a leading zero stands alone. -/
def readNumber (text : List Char) : Option (List Char) :=
  let unsigned := match text with
    | '-' :: rest => rest
    | rest => rest
  match unsigned with
  | '0' :: rest => readFraction rest
  | rest => (readDigits rest).bind readFraction

mutual

/-- One value after white space, with what is left. Every step inwards spends one of the fuel. -/
def readKind : Nat → List Char → Option (ParsedKind × List Char)
  | 0, _ => none
  | n + 1, text =>
    match text.dropWhile isJsonSpace with
    | '"' :: rest => (readLiteral rest).map fun read => (.string, read.2)
    | '[' :: rest =>
      match rest.dropWhile isJsonSpace with
      | ']' :: rest => some (.array, rest)
      | _ => (readItems n rest).map fun rest => (.array, rest)
    | '\x7b' :: rest =>
      match rest.dropWhile isJsonSpace with
      | '\x7d' :: rest => some (.other, rest)
      | _ => (readMembers n rest).map fun rest => (.other, rest)
    | 't' :: 'r' :: 'u' :: 'e' :: rest => some (.other, rest)
    | 'f' :: 'a' :: 'l' :: 's' :: 'e' :: rest => some (.other, rest)
    | 'n' :: 'u' :: 'l' :: 'l' :: rest => some (.other, rest)
    | rest => (readNumber rest).map fun rest => (.other, rest)

/-- The items of an array up to its bracket. -/
def readItems : Nat → List Char → Option (List Char)
  | 0, _ => none
  | n + 1, text => (readKind n text).bind fun read =>
    match read.2.dropWhile isJsonSpace with
    | ',' :: rest => readItems n rest
    | ']' :: rest => some rest
    | _ => none

/-- The members of an object up to its brace. -/
def readMembers : Nat → List Char → Option (List Char)
  | 0, _ => none
  | n + 1, text =>
    match text.dropWhile isJsonSpace with
    | '"' :: rest => (readLiteral rest).bind fun name =>
      match name.2.dropWhile isJsonSpace with
      | ':' :: rest => (readKind n rest).bind fun read =>
        match read.2.dropWhile isJsonSpace with
        | ',' :: rest => readMembers n rest
        | '\x7d' :: rest => some rest
        | _ => none
      | _ => none
    | _ => none

end

/-- The kind of `JSON.parse(text)`, or `none` where that throws. -/
def parseKind (text : List Char) : Option ParsedKind :=
  (readKind (2 * text.length + 2) text).bind fun read =>
    if read.2.all isJsonSpace then some read.1 else none

end InboxServer.Json
