import InboxServer.Domain.JobFailure
import InboxServer.Infra.Trace

/-!
# Extraction from a page that scrolls

`scrollExtract` of `apps/worker/src/browser-collectors.ts`, as a program that looks at a page and
scrolls it. Any of its calls may throw.
-/

namespace InboxServer

open Infra

inductive ScrollCall where
  /-- `page.evaluate(extract)` -/
  | evaluate
  | scrollDocumentToEnd
  | waitForTimeout (milliseconds : Nat)
  deriving DecidableEq

@[reducible] def ScrollCall.Answer : ScrollCall → Type
  | .evaluate => Except Thrown (List Json)
  | .scrollDocumentToEnd | .waitForTimeout _ => Except Thrown Unit

abbrev ScrollProg (α : Type) := Prog ScrollCall ScrollCall.Answer (Except Thrown α)

/-- What `scrollExtract` is given. -/
structure ScrollOptions (α : Type) where
  parse : List Json → List α
  shouldStop : List α → Bool
  stableKey : Option (α → String)

/-- `keyedItems`, `accumulated` and `previousCount` -/
structure ScrollState (α : Type) where
  keyedItems : Entries α
  accumulated : List α
  previousCount : Int

/-- The items of a view whose key is new are set in the map; how many they are. -/
def mergeView {α : Type} (stableKey : α → String) : Entries α → List α → Entries α × Nat
  | keyedItems, [] => (keyedItems, 0)
  | keyedItems, item :: items =>
    if keyedItems.any (·.1 = stableKey item) then mergeView stableKey keyedItems items
    else
      let (keyedItems, added) := mergeView stableKey (keyedItems ++ [(stableKey item, item)]) items
      (keyedItems, added + 1)

/-- What is returned: the values of the map, or what the last view showed. -/
def ScrollState.items {α : Type} (options : ScrollOptions α) (state : ScrollState α) : List α :=
  if options.stableKey.isSome then state.keyedItems.map (·.2) else state.accumulated

/-- What a view adds to the state; `none` where it ends the loop as it is. -/
def ScrollState.look {α : Type} (options : ScrollOptions α) (state : ScrollState α)
    (current : List α) : Option (ScrollState α) :=
  match options.stableKey with
  | some stableKey =>
    let (keyedItems, added) := mergeView stableKey state.keyedItems current
    if added = 0 then none else some { state with keyedItems }
  | none =>
    if (current.length : Int) = state.previousCount then none
    else some { state with accumulated := current, previousCount := current.length }

/-- The loop, with the rounds that are left. -/
def scrollRounds {α : Type} (options : ScrollOptions α) : Nat → ScrollState α → ScrollProg (List α)
  | 0, state => .ret (.ok (state.items options))
  | rounds + 1, state => .call .evaluate fun
    | .error e => .ret (.error e)
    | .ok input =>
      let current := options.parse input
      match state.look options current with
      | none => .ret (.ok (state.items options))
      | some state =>
        if options.shouldStop current then .ret (.ok (state.items options))
        else .call .scrollDocumentToEnd fun
          | .error e => .ret (.error e)
          | .ok () => .call (.waitForTimeout 1500) fun
            | .error e => .ret (.error e)
            | .ok () => scrollRounds options rounds state

/-- `scrollExtract(page, extract, parse, shouldStop, stableKey)` -/
def scrollExtract {α : Type} (options : ScrollOptions α) : ScrollProg (List α) :=
  scrollRounds options 20 { keyedItems := [], accumulated := [], previousCount := -1 }

end InboxServer
