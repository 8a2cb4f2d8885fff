import InboxServer.Domain.IsoDate
import InboxServer.Release.Executor

/-!
# What the rehearsals share

The thrown values and the dates of `legacy-rehearsal-executor.ts` and `state-restore-executor.ts`.
Both keep the first failure in a variable and ask `if (failure)`, so it matters here whether a thrown
value is truthy.
-/

namespace InboxServer.Release

/-! ## Thrown values -/

/-- A thrown value: an `Error`, or something else, which may be falsy. -/
inductive Raised where
  | error (message : String)
  | value (truthy : Bool)
  deriving DecidableEq

/-- What a variable holds before anything is assigned to it. -/
def Raised.undefined : Raised := .value false

/-- `if (failure)` -/
def Raised.truthy : Raised → Bool
  | .error _ => true
  | .value truthy => truthy

/-- `error instanceof Error ? error.message : other` -/
def Raised.messageOr (other : String) : Raised → String
  | .error message => message
  | .value _ => other

/-- `if (!failure) failure = error` -/
def Raised.orElse (failure error : Raised) : Raised := if failure.truthy then failure else error

@[simp] theorem Raised.truthy_undefined : Raised.undefined.truthy = false := rfl

theorem Raised.truthy_orElse (failure error : Raised) :
    (failure.orElse error).truthy = (failure.truthy || error.truthy) := by
  unfold orElse
  split <;> simp [*]

/-! ## What the code throws itself -/

/-- Whatever is thrown is truthy. -/
def RaisesTruthy {α : Type} (outcome : Except Raised α) : Prop :=
  ∀ error, outcome = .error error → error.truthy

namespace RaisesTruthy

variable {α β : Type}

theorem error {message : String} : RaisesTruthy (.error (.error message) : Except Raised α) := by
  rintro error ⟨⟩
  rfl

theorem ok {a : α} : RaisesTruthy (.ok a : Except Raised α) := by
  rintro error ⟨⟩

theorem bind {outcome : Except Raised α} {f : α → Except Raised β} (h : RaisesTruthy outcome)
    (hf : ∀ a, RaisesTruthy (f a)) : RaisesTruthy (outcome >>= f) := by
  intro error herror
  rcases outcome with error' | a
  · cases herror
    exact h _ rfl
  · exact hf a _ herror

theorem mapM {f : α → Except Raised β} (hf : ∀ a, RaisesTruthy (f a)) (l : List α) :
    RaisesTruthy (l.mapM f) := by
  induction l with
  | nil => exact ok
  | cons a l ih =>
    rw [List.mapM_cons]
    exact (hf a).bind fun b => ih.bind fun bs => ok

theorem forM {f : α → Except Raised PUnit} (hf : ∀ a, RaisesTruthy (f a)) (l : List α) :
    RaisesTruthy (l.forM f) := by
  induction l with
  | nil => exact ok
  | cons a l ih => exact (hf a).bind fun _ => ih

end RaisesTruthy

/-! ## Dates -/

/-- `getTime()` of a `Date`: that of an Invalid Date is `NaN`. -/
abbrev TimeValue := Option Int

/-- `toISOString()`, which throws for an Invalid Date. -/
def isoText : TimeValue → Except Raised String
  | some instant => .ok (toISOString instant)
  | none => .error (.error "Invalid time value")

/-- `left - right` -/
def elapsed (left right : TimeValue) : TimeValue :=
  left.bind fun finish => right.map fun start => finish - start

/-- `time > bound`, which `NaN` is not. -/
def exceeds (time : TimeValue) (bound : Int) : Bool :=
  match time with
  | some milliseconds => bound < milliseconds
  | none => false

/-! ## Texts -/

/-- `text.trim()` -/
def trimmed (text : List Char) : List Char :=
  ((text.dropWhile isSpaceChar).reverse.dropWhile isSpaceChar).reverse

/-- `[^\s:]` -/
def isPathChar (c : Char) : Bool := !isSpaceChar c && c ≠ ':'

/-- `\/(?:…)\/[^\s:]+` at the start of a text, with the roots in between: what follows it. -/
def matchPath (roots : List String) (text : List Char) : Option (List Char) :=
  roots.findSome? fun root =>
    let start := '/' :: root.toList ++ ['/']
    let rest := text.drop start.length
    if !start.isPrefixOf text || (rest.takeWhile isPathChar).isEmpty then none
    else some (rest.dropWhile isPathChar)

/-- Credentials, addresses and paths are hidden, each in the place of its match. -/
def hideAll (credential : List Char → List Char) (roots : List String) (value : String) : String :=
  let hidden := replaceAll (fun text => (matchCredential text).map fun (kept, rest) =>
    (credential kept, rest)) value.length value.toList
  let plain := replaceAll (fun text => (matchAddress text).map fun rest => ("[url]".toList, rest))
    hidden.length hidden
  let bare := replaceAll (fun text => (matchPath roots text).map fun rest => ("[path]".toList, rest))
    plain.length plain
  slice500 (String.ofList (trimmed bare))

end InboxServer.Release
