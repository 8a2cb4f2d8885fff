import InboxServer.Domain.Json

/-!
# Classified failures

`packages/domain/src/job-failure.ts`: whether a failure may be retried, and the message about it
that may be stored. The two regular expressions are scanners here. Both ignore case in the ASCII
range only, as `/i` without `/u` does for letters of that range, and neither backtracks: after the
keyword, white space, the separator and the value exclude each other.
-/

namespace InboxServer

inductive JobErrorClass where
  | permanent | retryable
  deriving DecidableEq

structure ClassifiedJobFailure where
  errorClass : JobErrorClass
  safeMessage : String
  deriving DecidableEq

/-- A thrown value, by what `classifyJobFailure` looks at. -/
inductive Thrown where
  | error (typeError : Bool) (message : String)
  | other
  deriving DecidableEq

/-! ## Characters -/

/-- `\w` -/
def isWordChar (c : Char) : Bool := c.isAlphanum || c = '_'

/-- `\s` -/
def isSpaceChar (c : Char) : Bool :=
  c ∈ ['\t', '\n', '\x0b', '\x0c', '\r', ' ', '\u00a0', '\u1680', '\u2028', '\u2029', '\u202f',
    '\u205f', '\u3000', '\ufeff'] || (0x2000 ≤ c.toNat && c.toNat ≤ 0x200a)

/-- `.` in a regular expression: anything but a line terminator. -/
def isLineTerminator (c : Char) : Bool := c ∈ ['\n', '\r', '\u2028', '\u2029']

/-- The rest of the text after a keyword, which is given in lower case. -/
def stripKeyword : List Char → List Char → Option (List Char)
  | [], text => some text
  | _ :: _, [] => none
  | k :: ks, c :: cs => if c.toLower = k then stripKeyword ks cs else none

/-! ## `RETRYABLE_MESSAGE` -/

def retryableKeywords : List String :=
  ["408", "409", "425", "429", "fetch", "network", "timeout", "temporar", "unavailable",
    "connection", "socket"]

/-- `5\d\d` -/
def stripServerError : List Char → Option (List Char)
  | '5' :: d :: e :: rest => if d.isDigit && e.isDigit then some rest else none
  | _ => none

/-- `\b` after a word character. -/
def atWordEnd : List Char → Bool
  | [] => true
  | c :: _ => !isWordChar c

def startsRetryable (text : List Char) : Bool :=
  retryableKeywords.any (fun k => (stripKeyword k.toList text).any atWordEnd) ||
    (stripServerError text).any atWordEnd

/-- The message has a keyword between word boundaries; `inWord` says what stands before `text`. -/
def hasRetryable (inWord : Bool) : List Char → Bool
  | [] => false
  | c :: cs => (!inWord && startsRetryable (c :: cs)) || hasRetryable (isWordChar c) cs

/-! ## `SECRET_VALUE` -/

def secretKeywords : List String :=
  ["api_key", "api-key", "apikey", "authorization", "cookie", "password", "secret", "token"]

/-- `\s*[=:]\s*` after a keyword: what it matched, and the rest. -/
def stripSeparator (text : List Char) : Option (List Char × List Char) :=
  let before := text.takeWhile isSpaceChar
  match text.dropWhile isSpaceChar with
  | c :: rest =>
    if c = '=' || c = ':' then
      some (before ++ c :: rest.takeWhile isSpaceChar, rest.dropWhile isSpaceChar)
    else none
  | [] => none

/-- `[^\s,;]` -/
def isSecretChar (c : Char) : Bool := !isSpaceChar c && c ≠ ',' && c ≠ ';'

/-- What stays of a match at the start of `text`, and what follows the secret. -/
def matchSecret (text : List Char) : Option (List Char × List Char) :=
  secretKeywords.findSome? fun k =>
    match stripKeyword k.toList text with
    | none => none
    | some rest =>
      match stripSeparator rest with
      | none => none
      | some (separator, value) =>
        if (value.takeWhile isSecretChar).isEmpty then none
        else some (text.take k.length ++ separator, value.dropWhile isSecretChar)

/-- `message.replace(SECRET_VALUE, "$1[redacted]")`; a match is never empty, so fuel suffices. -/
def replaceSecrets : Nat → List Char → List Char
  | 0, text => text
  | _ + 1, [] => []
  | fuel + 1, c :: cs =>
    match matchSecret (c :: cs) with
    | some (kept, rest) => kept ++ "[redacted]".toList ++ replaceSecrets fuel rest
    | none => c :: replaceSecrets fuel cs

def redactErrorMessage (message : String) : String :=
  slice500 (String.ofList (replaceSecrets message.length message.toList))

/-! ## The classification -/

def classifyJobFailure (error : Thrown) : ClassifiedJobFailure :=
  let message := match error with
    | .error _ message => message
    | .other => "unknown worker error"
  let retryable := match error with
    | .error typeError _ => typeError || hasRetryable false message.toList
    | .other => hasRetryable false message.toList
  { errorClass := if retryable then .retryable else .permanent
    safeMessage := redactErrorMessage message }

example : classifyJobFailure (.error false "HTTP 503: token = abc, retry") =
    ⟨.retryable, "HTTP 503: token = [redacted], retry"⟩ := by decide +kernel

example : (classifyJobFailure (.error false "temporary")).errorClass = .permanent := by
  decide +kernel

end InboxServer
