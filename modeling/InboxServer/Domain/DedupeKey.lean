import InboxServer.Domain.QueueJob

/-!
# Dedupe keys of items

`createItemDedupeKey` of `packages/domain/src/queue-job.ts`, with SHA-256 as a parameter.
-/

namespace InboxServer

/-- `itemIdentity(item)` -/
def itemIdentity : DispatchItem → String
  | .link _ _ url => url
  | .article _ _ _ url => url
  | .text content _ => content
  | .file _ _ remoteName => remoteName

/-- `createItemDedupeKey(item)` -/
def createItemDedupeKey (sha256Hex : String → String) (item : DispatchItem) : String :=
  "dispatch:" ++ item.itemKind.name ++ ":" ++ sha256Hex (itemIdentity item)

end InboxServer
