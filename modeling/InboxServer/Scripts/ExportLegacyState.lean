import InboxServer.Domain.DedupeKey
import InboxServer.Worker.RateLimits

/-!
# The export of the Python worker's state

What `scripts/export_legacy_state.py` makes of the done keys and daily counters in Redis, and how
the Python worker named them: `domain/policy/dedup.py`, `domain/policy/daily_limit.py` and
`queue_key`. The hashes are parameters.
-/

namespace InboxServer

namespace Legacy

structure Hashes where
  /-- `hashlib.md5(text.encode()).hexdigest()` -/
  md5Hex : String → String
  /-- `hashlib.sha256(text.encode()).hexdigest()` -/
  sha256Hex : String → String
  /-- `str(uuid.uuid5(NAMESPACE, name))` -/
  uuid5 : String → String

/-! ## The keys of the Python worker -/

/-- What the worker's policies read of the payload of an item. -/
structure LegacyItem where
  url : Option String
  content : Option String
  remoteName : Option String

/-- The payload that the Python queue held for an item. -/
def legacyItem : DispatchItem → LegacyItem
  | .link _ _ url | .article _ _ _ url => ⟨some url, none, none⟩
  | .text content _ => ⟨none, some content, none⟩
  | .file _ _ remoteName => ⟨none, none, some remoteName⟩

/-- `fingerprint(item, kind)` -/
def fingerprint (hashes : Hashes) (item : LegacyItem) : ItemKind → String
  | .link => item.url.getD ""
  | .text => hashes.md5Hex (item.content.getD "")
  | .file => item.remoteName.getD ""
  | .article => hashes.sha256Hex (item.url.getD "")

/-- `queue_key(kind)` -/
def queueKey (kind : ItemKind) : String := "queue:" ++ kind.name

/-- `done_key(queue_key, fp)` -/
def doneKey (queueKey fp : String) : String := queueKey ++ ":done:" ++ fp

/-- `now.strftime('%Y%m%d')` -/
def strftime (now : CivilDate) : String :=
  toString now.year.toNat ++ pad2 now.month.toNat ++ pad2 now.day.toNat

/-- `daily_key(prefix, now)`, of the local date. -/
def dailyKey (queueKey : String) (now : CivilDate) : String :=
  queueKey ++ ":daily:" ++ strftime now

/-! ## Redis -/

/-- A key that holds a number, with what is left of its life in seconds. -/
structure RedisEntry where
  key : String
  value : Option Nat
  ttl : Int

/-- The match of `scan_iter`, for patterns of letters and `*`. -/
def globMatch : List Char → List Char → Bool
  | [], text => text.isEmpty
  | c :: pattern, text =>
    if c = '*' then text.tails.any (globMatch pattern)
    else match text with
      | [] => false
      | x :: rest => c = x && globMatch pattern rest

/-- `client.scan_iter(match=pattern)` -/
def scanIter (pattern : String) (store : List RedisEntry) : List RedisEntry :=
  store.filter fun entry => globMatch pattern.toList entry.key.toList

/-! ## The export -/

/-- `text.split(sep, maxsplit)` -/
def splitMax (sep : Char) : Nat → List Char → List (List Char)
  | 0, text => [text]
  | maxsplit + 1, text =>
    match text.dropWhile (· ≠ sep) with
    | [] => [text]
    | _ :: rest => text.takeWhile (· ≠ sep) :: splitMax sep maxsplit rest

def isHexDigit (c : Char) : Bool := "0123456789abcdef".toList.contains c

/-- `digest_identity(kind, identity)` -/
def digestIdentity (hashes : Hashes) (kind identity : String) : String :=
  if kind = "article" ∧ identity.toList.length = 64 ∧ identity.toList.all isHexDigit then identity
  else hashes.sha256Hex identity

structure DoneJob where
  dedupeKey : String
  jobId : String
  itemKind : String
  completedAt : String
  deriving DecidableEq

/-- The body of the loop over the done keys; it throws unless the key has four parts. -/
def doneJob (hashes : Hashes) (exportedAt key : String) : Option DoneJob :=
  match splitMax ':' 3 key.toList with
  | [_, kind, _, identity] =>
    let kind := String.ofList kind
    let dedupeKey := "dispatch:" ++ kind ++ ":" ++
      digestIdentity hashes kind (String.ofList identity)
    some { dedupeKey, jobId := hashes.uuid5 dedupeKey, itemKind := kind, completedAt := exportedAt }
  | _ => none

/-- `doneJobs` of the export. -/
def exportDoneJobs (hashes : Hashes) (exportedAt : String) (store : List RedisEntry) :
    Option (List DoneJob) :=
  ((scanIter "queue:*:done:*" store).mapM fun entry => doneJob hashes exportedAt entry.key).map
    fun jobs => jobs.insertionSort fun a b => a.dedupeKey ≤ b.dedupeKey

structure ExportedLimit where
  scope : String
  bucketKey : String
  count : Nat
  expiresAt : Instant
  deriving DecidableEq

/-- The body of the loop over the daily counters. -/
def exportedLimit (now : Instant) (entry : RedisEntry) : Option ExportedLimit :=
  match entry.key.toList.splitOn ':' with
  | _ :: kind :: _ :: date :: _ =>
    some { scope := String.ofList kind ++ ":daily", bucketKey := String.ofList date
           count := entry.value.getD 0, expiresAt := now + max entry.ttl 0 * 1000 }
  | _ => none

/-- `rateLimits` of the export. -/
def exportRateLimits (now : Instant) (store : List RedisEntry) : List ExportedLimit :=
  ((scanIter "queue:*:daily:*" store).filterMap (exportedLimit now)).insertionSort fun a b =>
    a.scope < b.scope ∨ (a.scope = b.scope ∧ a.bucketKey ≤ b.bucketKey)

end Legacy

end InboxServer
