import InboxServer.Api.Env

/-!
# A concrete environment

Two jobs and an environment that treats them as the real one does, for runs on fixed inputs: the
formats accept the texts of the jobs, the digests that the runs need are the SHA-256 digests, and
the article is encrypted and decrypted.
-/

namespace InboxServer.Sample

def createdAt : String := "2026-01-05T08:00:00.000Z"

def firstId : String := "8b1c0a52-6f0e-4a3d-9a51-0d1f5b8f0c11"

def secondId : String := "2f6a1d3e-90c4-4b7e-8a21-7c5d4e3f2a10"

def articleUrl : String := "https://example.com/a"

def zod : Zod where
  uuid s := s = firstId || s = secondId
  datetime s := s = createdAt
  url s := if s = articleUrl then some s else none
  issueText _ := "[]"

theorem zod_lawful : zod.Lawful where
  url_idem s u h := by
    simp only [zod] at h
    split at h
    · next hs => rw [← Option.some.inj h, hs]; rfl
    · cases h
  uuid_noNul s h := by
    simp only [zod, Bool.or_eq_true, decide_eq_true_eq] at h
    rcases h with rfl | rfl <;> decide
  uuid_ne_empty s h := by
    simp only [zod, Bool.or_eq_true, decide_eq_true_eq] at h
    rcases h with rfl | rfl <;> decide

/-- A text job under the given id. -/
def textJob (jobId : String) : QueueJob where
  createdAt
  dedupeKey := "text:1"
  jobId
  payload := .dispatchItem (.text "note" none)

/-- An article job under the given id. -/
def articleJob (jobId : String) : QueueJob where
  createdAt
  dedupeKey := "article:1"
  jobId
  payload := .dispatchItem (.article createdAt none none articleUrl)

theorem textJob_valid (jobId : String) (h : zod.uuid jobId = true) : (textJob jobId).Valid zod where
  createdAt := rfl
  dedupeKey := by simp [textJob]
  jobId := h
  item item hitem := by
    obtain rfl := JobPayload.dispatchItem.inj hitem
    exact ⟨by simp, by simp⟩

theorem articleJob_valid (jobId : String) (h : zod.uuid jobId = true) :
    (articleJob jobId).Valid zod where
  createdAt := rfl
  dedupeKey := by simp [articleJob]
  jobId := h
  item item hitem := by
    obtain rfl := JobPayload.dispatchItem.inj hitem
    exact ⟨by decide, by simp, by decide⟩

/-! ## Digests and encryption -/

def replayKey : String := "replay-1"

/-- The texts that the runs hash, with their digests. -/
def jobText : String := (articleJob firstId).stringify

def jobDigest : String := "d60acbea93477d1591f136b102cc9f81727faf04d21a675285913d0272d0d616"

def replayText : String := joinNul firstId replayKey

def replayDigest : String := "76c1ebfd50d65685c680bccbd6bd9458f76382cab2610d42a4f0766a3ae3c5cd"

/-- SHA-256 on the two texts, and without collisions everywhere. -/
def sha256Hex (text : String) : String :=
  Equiv.swap replayText replayDigest (Equiv.swap jobText jobDigest text)

theorem sha256Hex_injective : Function.Injective sha256Hex :=
  (Equiv.swap replayText replayDigest).injective.comp (Equiv.swap jobText jobDigest).injective

/-- A random IV of the twelve bytes that AES-GCM takes. -/
def iv : Bytes := [17, 4, 200, 93, 3, 66, 151, 8, 250, 31, 77, 120]

/-- The article under the key of the sample: its ciphertext and tag. -/
def sealedArticle : Bytes := List.replicate 272 170

/-- The version byte and the IV come before the ciphertext. -/
def encryptJson (iv : Bytes) (value : Json) : Option Bytes :=
  if iv.length = 12 ∧ value = (articleJob firstId).toJson then
    some (1 :: iv ++ sealedArticle)
  else none

def decryptJson (envelope : Bytes) : Option Json :=
  if envelope.length ≤ 13 ∨ envelope.head? ≠ some 1 then none
  else some (articleJob firstId).toJson

def env : Env where
  zod
  sha256Hex
  encryptJson
  decryptJson

theorem env_roundTrips : env.RoundTrips := by
  intro iv value ciphertext h
  simp only [env, encryptJson] at h
  split at h
  · next hv =>
    rw [← Option.some.inj h, hv.2]
    have hlong : ¬ (1 :: iv ++ sealedArticle).length ≤ 13 := by
      rw [List.length_append, List.length_cons, hv.1, sealedArticle, List.length_replicate]
      omega
    have hversion : ¬ (1 :: iv ++ sealedArticle).head? ≠ some 1 := by simp
    exact if_neg (not_or.mpr ⟨hlong, hversion⟩)
  · cases h

theorem env_collisionFree : env.CollisionFree := sha256Hex_injective

end InboxServer.Sample
