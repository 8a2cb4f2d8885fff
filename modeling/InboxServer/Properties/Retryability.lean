import InboxServer.Properties.ArchivePhase
import InboxServer.Properties.HandlerCalls
import InboxServer.Worker.QueueProcessor

/-!
# Which failed archives are tried again

An error that is thrown before the write becomes a reason code, the code a message, the message an
error of the handler, and this error the class of the failed job.

* `archived_class` — the class at the end is `retryable` exactly for what the archiver recognises
* `retryability_kept` — over the runs of the archiver, the handler and the worker
-/

namespace InboxServer

open Infra

/-! ## Messages that are stored as they are -/

theorem stripSeparator_eq_none {text : List Char} (h : ∀ c ∈ text, c ≠ '=' ∧ c ≠ ':') :
    stripSeparator text = none := by
  unfold stripSeparator
  split
  · next c rest hdrop =>
    have hc : c ∈ text := List.dropWhile_subset _ (hdrop ▸ List.mem_cons_self)
    simp [h c hc]
  · rfl

/-- What follows a keyword is of the text. -/
theorem mem_of_stripKeyword {keyword text rest : List Char}
    (h : stripKeyword keyword text = some rest) : ∀ c ∈ rest, c ∈ text := by
  induction keyword generalizing text with
  | nil =>
    rw [stripKeyword, Option.some.injEq] at h
    exact fun c hc => h ▸ hc
  | cons k ks ih =>
    cases text with
    | nil => cases h
    | cons x xs =>
      rw [stripKeyword] at h
      split at h
      · exact fun c hc => List.mem_cons_of_mem x (ih h c hc)
      · cases h

/-- A text is kept where no secret starts at any of its places. -/
theorem replaceSecrets_of_tails {text : List Char} (fuel : Nat)
    (h : ∀ rest, rest <:+ text → matchSecret rest = none) : replaceSecrets fuel text = text := by
  induction fuel generalizing text with
  | zero => rfl
  | succ fuel ih =>
    cases text with
    | nil => rfl
    | cons c cs =>
      rw [replaceSecrets, h (c :: cs) List.suffix_rfl,
        ih fun rest hrest => h rest (hrest.trans (List.suffix_cons c cs))]

/-- A message without a separator has no secret. -/
theorem replaceSecrets_plain {text : List Char} (h : ∀ c ∈ text, c ≠ '=' ∧ c ≠ ':') (fuel : Nat) :
    replaceSecrets fuel text = text := by
  refine replaceSecrets_of_tails fuel fun rest hrest => List.findSome?_eq_none_iff.mpr fun k _ => ?_
  cases hstrip : stripKeyword k.toList rest with
  | none => rfl
  | some value =>
    have hvalue : stripSeparator value = none := stripSeparator_eq_none fun c hc =>
      h c (hrest.subset (mem_of_stripKeyword hstrip c hc))
    simp only [hvalue]

/-- Nor has one that mentions none of the words. -/
theorem replaceSecrets_unmentioned {text : String} (h : mentions secretKeywords text = false)
    (fuel : Nat) : replaceSecrets fuel text.toList = text.toList := by
  refine replaceSecrets_of_tails fuel fun rest hrest => List.findSome?_eq_none_iff.mpr fun k hk => ?_
  have hnone : (stripKeyword k.toList rest).isSome = false := by
    unfold mentions at h
    rw [List.any_eq_false] at h
    have hall := h rest ((List.mem_tails rest text.toList).mpr hrest)
    rw [Bool.not_eq_true, List.any_eq_false] at hall
    simpa using hall k hk
  rw [Option.isSome_eq_false_iff, Option.isNone_iff_eq_none] at hnone
  simp only [hnone]

/-! ## Numbers at the end of a message -/

/-- A keyword that stands in a text with something behind it stands in the text, or goes on into
what is behind it. -/
theorem stripKeyword_append {keyword pre post : List Char}
    (hpost : ∀ c ∈ post, c.toLower ∉ keyword) (h : (stripKeyword keyword (pre ++ post)).isSome) :
    (stripKeyword keyword pre).isSome := by
  induction keyword generalizing pre with
  | nil => rfl
  | cons k ks ih =>
    cases pre with
    | nil =>
      cases post with
      | nil => exact h
      | cons c cs =>
        rw [List.nil_append, stripKeyword] at h
        split at h
        · next hc => exact absurd (hc ▸ List.mem_cons_self) (hpost c List.mem_cons_self)
        · cases h
    | cons c cs =>
      rw [List.cons_append, stripKeyword] at h
      rw [stripKeyword]
      split at h
      · next hc =>
        rw [if_pos hc]
        exact ih (fun x hx hmem => hpost x hx (List.mem_cons_of_mem k hmem)) h
      · cases h

/-- What is behind a text mentions nothing that its characters do not occur in. -/
theorem mentions_append {keywords : List String} {pre post : String}
    (hpost : ∀ c ∈ post.toList, ∀ k ∈ keywords, c.toLower ∉ k.toList)
    (h : mentions keywords (pre ++ post) = true) : mentions keywords pre = true := by
  unfold mentions at h ⊢
  obtain ⟨rest, hrest, hany⟩ := List.any_eq_true.mp h
  obtain ⟨k, hk, hstrip⟩ := List.any_eq_true.mp hany
  rw [List.mem_tails, String.toList_append] at hrest
  obtain ⟨front, hfront⟩ := hrest
  have hin : ∃ tail, tail <:+ pre.toList ∧ (stripKeyword k.toList tail).isSome = true := by
    rcases List.append_eq_append_iff.mp hfront with ⟨tail, hpre, hrest'⟩ | ⟨cut, hcut, hpost'⟩
    · exact ⟨tail, ⟨front, hpre.symm⟩,
        stripKeyword_append (fun c hc => hpost c hc k hk) (hrest' ▸ hstrip)⟩
    · have hstrip' : (stripKeyword k.toList ([] ++ rest)).isSome = true := hstrip
      refine ⟨[], List.nil_suffix, stripKeyword_append (fun c hc => ?_) hstrip'⟩
      exact hpost c (hpost' ▸ List.mem_append_right cut hc) k hk
  obtain ⟨tail, htail, hstrip'⟩ := hin
  exact List.any_eq_true.mpr ⟨tail, (List.mem_tails tail _).mpr htail,
    List.any_eq_true.mpr ⟨k, hk, hstrip'⟩⟩

theorem toLower_of_isDigit {c : Char} (h : c.isDigit = true) : c.toLower = c := by
  unfold Char.isDigit at h
  unfold Char.toLower
  simp only [ge_iff_le, Bool.and_eq_true, decide_eq_true_eq] at h
  refine dif_neg fun hupper => ?_
  have hle : c.val.toNat ≤ 57 := h.2
  have hge : 65 ≤ c.val.toNat := hupper.1
  omega

theorem isWordChar_of_isDigit {c : Char} (h : c.isDigit = true) : isWordChar c = true := by
  simp [isWordChar, Char.isAlphanum, h]

/-- Behind a word character there is only the rest of the word. -/
theorem hasRetryable_word {word : List Char} (h : ∀ c ∈ word, isWordChar c = true) :
    hasRetryable true word = false := by
  induction word with
  | nil => rfl
  | cons c cs ih =>
    rw [hasRetryable, h c List.mem_cons_self, ih fun x hx => h x (List.mem_cons_of_mem c hx)]
    rfl

/-- What follows a keyword is shorter by it. -/
theorem length_of_stripKeyword {keyword text rest : List Char}
    (h : stripKeyword keyword text = some rest) : text.length = keyword.length + rest.length := by
  induction keyword generalizing text with
  | nil =>
    rw [stripKeyword, Option.some.injEq] at h
    rw [h, List.length_nil, Nat.zero_add]
  | cons k ks ih =>
    cases text with
    | nil => cases h
    | cons c cs =>
      rw [stripKeyword] at h
      split at h
      · rw [List.length_cons, ih h, List.length_cons]
        omega
      · cases h

/-- A letter of a keyword is no digit. -/
theorem stripKeyword_digits {keyword digits rest : List Char}
    (hdigits : ∀ c ∈ digits, c.isDigit = true) (h : stripKeyword keyword digits = some rest) :
    ∀ k ∈ keyword, k.isDigit = true := by
  induction keyword generalizing digits with
  | nil => exact fun k hk => absurd hk List.not_mem_nil
  | cons k ks ih =>
    cases digits with
    | nil => cases h
    | cons c cs =>
      have hc := hdigits c List.mem_cons_self
      rw [stripKeyword, toLower_of_isDigit hc] at h
      split at h
      · next hsame =>
        intro k' hk'
        rcases List.mem_cons.mp hk' with rfl | hk'
        · exact hsame ▸ hc
        · exact ih (fun x hx => hdigits x (List.mem_cons_of_mem c hx)) h k' hk'
      · cases h

/-- A word ends among digits only where they end. -/
theorem atWordEnd_digits {digits : List Char} (hdigits : ∀ c ∈ digits, c.isDigit = true)
    (h : atWordEnd digits = true) : digits = [] := by
  cases digits with
  | nil => rfl
  | cons c cs => simp [atWordEnd, isWordChar_of_isDigit (hdigits c List.mem_cons_self)] at h

/-- A number that is a keyword has three digits. -/
theorem length_of_startsRetryable {digits : List Char} (hdigits : ∀ c ∈ digits, c.isDigit = true)
    (h : startsRetryable digits = true) : digits.length = 3 := by
  rw [startsRetryable, Bool.or_eq_true, List.any_eq_true] at h
  rcases h with ⟨k, hk, hstrip⟩ | hstrip
  · obtain ⟨rest, hrest, hend⟩ := (Option.any_eq_true _ _).mp hstrip
    have hempty := atWordEnd_digits
      (fun c hc => hdigits c (mem_of_stripKeyword hrest c hc)) hend
    have hlength := length_of_stripKeyword hrest
    have hall := stripKeyword_digits hdigits hrest
    rw [hempty, List.length_nil, Nat.add_zero] at hlength
    have hkeywords : retryableKeywords.all (fun k =>
        !k.toList.all Char.isDigit || k.toList.length = 3) = true := by decide +kernel
    have hthree := List.all_eq_true.mp hkeywords k hk
    rw [List.all_eq_true.mpr hall] at hthree
    rw [hlength, of_decide_eq_true hthree]
  · obtain ⟨rest, hrest, hend⟩ := (Option.any_eq_true _ _).mp hstrip
    unfold stripServerError at hrest
    split at hrest
    · next d e tail =>
      split at hrest
      · obtain rfl := Option.some.inj hrest
        rw [atWordEnd_digits (fun c hc => hdigits c (by simp [hc])) hend]
        rfl
      · cases hrest
    · cases hrest

/-- `408`, `409`, `425`, `429` and `5\d\d` -/
def retryableStatus (status : Nat) : Bool :=
  status ∈ [408, 409, 425, 429] || (500 ≤ status && status < 600)

/-- The text of a status begins as retryable where the status is. -/
theorem startsRetryable_toString (status : Nat) :
    startsRetryable (toString status).toList = retryableStatus status := by
  have hdigits : ∀ c ∈ (toString status).toList, c.isDigit = true :=
    fun c hc => isDigit_of_mem_toString hc
  by_cases hsmall : status < 1000
  · have hall : ∀ n < 1000, startsRetryable (toString n).toList = retryableStatus n := by
      decide +kernel
    exact hall status hsmall
  · have hlong : ¬ (toString status).toList.length ≤ 3 := fun hle => hsmall
      ((Nat.length_toDigits_le_iff (b := 10) (k := 3) (by decide) (by decide)).mp
        (by rwa [← Nat.toList_repr]))
    have hstarts : startsRetryable (toString status).toList = false := by
      rw [Bool.eq_false_iff]
      intro h
      exact hlong (length_of_startsRetryable hdigits h).le
    rw [hstarts]
    simp [retryableStatus]
    omega

/-! ## The message of a rejected request -/

/-- What stands before the status. -/
def rejectedPrefix : String := "zhihu api rejected: HTTP "

/-- The message of a rejection is retryable where its status begins so. -/
theorem hasRetryable_rejected {digits : List Char} (hdigits : ∀ c ∈ digits, c.isDigit = true) :
    hasRetryable false (rejectedPrefix.toList ++ digits) = startsRetryable digits := by
  have hskip : hasRetryable false (rejectedPrefix.toList ++ digits) = hasRetryable false digits :=
    rfl
  rw [hskip]
  cases digits with
  | nil => rfl
  | cons c cs =>
    rw [hasRetryable, isWordChar_of_isDigit (hdigits c List.mem_cons_self),
      hasRetryable_word fun x hx => isWordChar_of_isDigit (hdigits x (List.mem_cons_of_mem c hx))]
    simp

/-- Text of the first plane is cut off by its characters. -/
theorem sliceUnits_eq_take {text : List Char} (h : ∀ c ∈ text, c.toNat < 0x10000) (n : Nat) :
    sliceUnits n text = text.take n := by
  induction text generalizing n with
  | nil => simp [sliceUnits]
  | cons c cs ih =>
    cases n with
    | zero => rfl
    | succ n =>
      unfold sliceUnits
      rw [if_pos (h c List.mem_cons_self), List.take_succ_cons,
        ih fun x hx => h x (List.mem_cons_of_mem c hx)]

theorem toNat_of_isDigit {c : Char} (h : c.isDigit = true) : c.toNat < 0x10000 := by
  unfold Char.isDigit at h
  simp only [ge_iff_le, Bool.and_eq_true, decide_eq_true_eq] at h
  have hle : c.val.toNat ≤ 57 := h.2
  show c.val.toNat < 0x10000
  omega

/-- The status stays a number of as many digits where it is one of three. -/
theorem startsRetryable_take {digits : List Char} (hdigits : ∀ c ∈ digits, c.isDigit = true) :
    startsRetryable (digits.take 475) = startsRetryable digits := by
  by_cases hshort : digits.length ≤ 475
  · rw [List.take_of_length_le hshort]
  · have hcut : startsRetryable (digits.take 475) = false := by
      rw [Bool.eq_false_iff]
      intro h
      have hlength := length_of_startsRetryable
        (fun c hc => hdigits c (List.mem_of_mem_take hc)) h
      rw [List.length_take] at hlength
      omega
    have hwhole : startsRetryable digits = false := by
      rw [Bool.eq_false_iff]
      intro h
      have hlength := length_of_startsRetryable hdigits h
      omega
    rw [hcut, hwhole]

theorem redact_plain {message : String} (h : ∀ c ∈ message.toList, c ≠ '=' ∧ c ≠ ':') :
    redactErrorMessage message = slice500 message := by
  rw [redactErrorMessage, replaceSecrets_plain h, String.ofList_toList]

theorem redact_unmentioned {message : String} (h : mentions secretKeywords message = false) :
    redactErrorMessage message = slice500 message := by
  rw [redactErrorMessage, replaceSecrets_unmentioned h, String.ofList_toList]

/-- The status decides whether the message of a rejected request is one to try again. -/
theorem hasRetryable_status (status : Nat) :
    hasRetryable false (redactErrorMessage
      (failureMessage true (some "zhihu_api_rejected") (some status))).toList =
      retryableStatus status := by
  have hdigits : ∀ c ∈ (toString status).toList, c.isDigit = true :=
    fun c hc => isDigit_of_mem_toString hc
  have hmessage : failureMessage true (some "zhihu_api_rejected") (some status) =
      rejectedPrefix ++ toString status := by
    have hcode : "zhihu_api_rejected".map (fun c => if c = '_' then ' ' else c) =
        "zhihu api rejected" := by decide +kernel
    simp only [failureMessage, if_true, Option.getD_some, hcode, Option.map_some,
      Option.toList_some, String.intercalate_cons_cons, String.intercalate_singleton]
    rfl
  have hunmentioned : mentions secretKeywords (rejectedPrefix ++ toString status) = false := by
    rw [Bool.eq_false_iff]
    intro h
    refine absurd (mentions_append (fun c hc k hk => ?_) h) (by decide +kernel)
    rw [toLower_of_isDigit (hdigits c hc)]
    have hletters : secretKeywords.all (fun k => k.toList.all fun c => !c.isDigit) = true := by
      decide +kernel
    intro hmem
    have hletter := List.all_eq_true.mp (List.all_eq_true.mp hletters k hk) c hmem
    rw [hdigits c hc] at hletter
    cases hletter
  rw [hmessage, redact_unmentioned hunmentioned, slice500, String.toList_ofList,
    String.toList_append, sliceUnits_eq_take, List.take_append]
  · have hkept : List.take 500 rejectedPrefix.toList = rejectedPrefix.toList := by decide +kernel
    have hrest : 500 - rejectedPrefix.toList.length = 475 := by decide +kernel
    rw [hkept, hrest, hasRetryable_rejected fun c hc => hdigits c (List.mem_of_mem_take hc),
      startsRetryable_take hdigits, startsRetryable_toString]
  · intro c hc
    rcases List.mem_append.mp hc with hpre | hdigit
    · have hall : rejectedPrefix.toList.all (fun c => c.toNat < 0x10000) = true := by decide +kernel
      exact of_decide_eq_true (List.all_eq_true.mp hall c hpre)
    · exact toNat_of_isDigit (hdigits c hdigit)

/-! ## From the thrown value to the class -/

/-- A value that is thrown, before the archiver or the worker look at it. -/
inductive Raised where
  | zhihuRejected (status : Nat)
  | error (typeError : Bool) (message : String)
  | other

/-- What the archiver sees of it. -/
def Raised.archive : Raised → ArchiveError
  | zhihuRejected status => .zhihuRejected status
  | error _ message => .error message
  | other => .other

/-- What `classifyJobFailure` sees of it. -/
def Raised.thrown : Raised → Thrown
  | zhihuRejected _ => .error false "zhihu_api_rejected"
  | error typeError message => .error typeError message
  | other => .other

/-- The error tells of a timeout, of the network, of a status that may pass, or its code is a
retryable message once it has spaces for underscores. -/
def ArchiveError.Recognised (e : ArchiveError) : Bool :=
  mentions ["timeout", "timed out", "time out"] e.message ||
    mentions ["network", "fetch", "connection", "socket", "econn", "enotfound", "unavailable"]
      e.message ||
    e.upstreamStatus.any retryableStatus ||
    hasRetryable false
      (slice500 ((safeErrorCode e).map fun c => if c = '_' then ' ' else c)).toList

example : (ArchiveError.error "http_503").Recognised = true := by decide +kernel

/-- An error code has word characters only. -/
theorem mem_safeErrorCode {e : ArchiveError} {c : Char} (h : c ∈ (safeErrorCode e).toList) :
    isWordChar c = true := by
  unfold safeErrorCode at h
  split at h
  · next hsafe =>
    rw [Bool.and_eq_true, List.all_eq_true] at hsafe
    exact hsafe.2 c h
  · have hall : "article_archive_failed".toList.all isWordChar = true := by decide +kernel
    exact List.all_eq_true.mp hall c h

/-- A code has no separator of a secret. -/
theorem spaced_plain (e : ArchiveError) :
    ∀ c ∈ ((safeErrorCode e).map fun c => if c = '_' then ' ' else c).toList,
      c ≠ '=' ∧ c ≠ ':' := by
  intro c hc
  rw [String.toList_map] at hc
  obtain ⟨d, hd, rfl⟩ := List.mem_map.mp hc
  have hword := mem_safeErrorCode hd
  split
  · decide
  · constructor <;> rintro rfl <;> exact absurd hword (by decide)

theorem failureMessage_none (code : String) : failureMessage true (some code) none =
    code.map fun c => if c = '_' then ' ' else c := by
  simp [failureMessage]

/-- The message that the handler throws is retryable exactly for what the archiver recognises. -/
theorem hasRetryable_archived (e : ArchiveError) :
    hasRetryable false (redactErrorMessage
      (failureMessage true (some (safeFailureReasonCode e)) e.upstreamStatus)).toList =
      e.Recognised := by
  cases hstatus : e.upstreamStatus with
  | some status =>
    cases e with
    | zhihuRejected s =>
      obtain rfl : s = status := Option.some.inj hstatus
      have htimeout : mentions ["timeout", "timed out", "time out"] "zhihu_api_rejected" = false := by
        decide +kernel
      have hnetwork : mentions ["network", "fetch", "connection", "socket", "econn", "enotfound",
          "unavailable"] "zhihu_api_rejected" = false := by decide +kernel
      have hsafe : safeErrorCode (.zhihuRejected s) = "zhihu_api_rejected" := by
        rw [safeErrorCode, show (ArchiveError.zhihuRejected s).message = "zhihu_api_rejected" from rfl]
        exact if_pos (by decide +kernel)
      have hspaced : hasRetryable false (slice500 ("zhihu_api_rejected".map
          fun c => if c = '_' then ' ' else c)).toList = false := by decide +kernel
      have hcode : safeFailureReasonCode (.zhihuRejected s) = "zhihu_api_rejected" := by
        simp [safeFailureReasonCode, ArchiveError.message, htimeout, hnetwork, hsafe]
      rw [hcode, hasRetryable_status]
      simp [ArchiveError.Recognised, ArchiveError.message, htimeout, hnetwork, hsafe, hspaced,
        ArchiveError.upstreamStatus]
    | error _ | other => cases hstatus
  | none =>
    rw [failureMessage_none]
    unfold ArchiveError.Recognised safeFailureReasonCode
    rw [hstatus]
    split
    · next htimeout =>
      have hmessage : hasRetryable false (redactErrorMessage ("article_timeout".map
          fun c => if c = '_' then ' ' else c)).toList = true := by decide +kernel
      rw [htimeout, hmessage]
      simp
    · next htimeout =>
      rw [Bool.not_eq_true] at htimeout
      rw [htimeout]
      split
      · next hnetwork =>
        have hmessage : hasRetryable false (redactErrorMessage ("article_network_error".map
            fun c => if c = '_' then ' ' else c)).toList = true := by decide +kernel
        rw [hnetwork, hmessage]
        simp
      · next hnetwork =>
        rw [Bool.not_eq_true] at hnetwork
        rw [hnetwork, redact_plain (spaced_plain e)]
        rfl

theorem classify_error (message : String) : classifyJobFailure (.error false message) =
    ⟨if hasRetryable false message.toList then .retryable else .permanent,
      redactErrorMessage message⟩ := rfl

/-- The class at the end of the way from an error that is thrown before the write. -/
theorem archived_class (e : ArchiveError) {thrown : Thrown}
    (h : (deliveryVerdict (.ok (.fail true (some (safeFailureReasonCode e)) e.upstreamStatus))).2 =
      .error thrown) :
    (classifyJobFailure thrown).errorClass = if e.Recognised then .retryable else .permanent := by
  simp only [deliveryVerdict, outcomeUnknown, Bool.not_true, Bool.false_and, Bool.false_eq_true,
    if_false, Except.error.injEq] at h
  rw [← h, classify_error, classify_error, hasRetryable_archived]

/-! ## The handler throws what it has recorded -/

/-- Where a run of the handler stands after a delivery. -/
inductive Aftermath where
  | free
  | ended (result : Except Thrown DeliveryResult)
  | thrown (error : Thrown)

/-- Once the failure of a delivery is recorded, nothing is called any more. -/
def aftermathProtocol : Protocol HandlerCall HandlerCall.Answer Aftermath where
  pre state _ := ∀ error, state ≠ .thrown error
  rely _ _ := True
  post
    | _, .awaitDelivery _, result => .ended result
    | .ended result, .finishEffect .., .ok () =>
      match (deliveryVerdict result).2 with
      | .ok _ => .free
      | .error error => .thrown error
    | _, _, _ => .free

/-- What was recorded as a failure is thrown. -/
def Rethrown {α : Type} (state : Aftermath) : Except Thrown α → Prop
  | .ok _ => state = .free
  | .error error => state = .free ∨ state = .thrown error

theorem rethrown_free {α : Type} {state : Aftermath} {result : Except Thrown α}
    (h : state = .free) : Rethrown state result := by
  cases result with
  | ok a => exact h
  | error error => exact Or.inl h

/-- A part that delivers nothing leaves no failed delivery behind. -/
theorem aftermath_free {α : Type} {p : HandlerProg α} (h : p.Makes fun c => c.delivers = false) :
    p.Follows aftermathProtocol Rethrown .free := by
  have hfree : p.Follows aftermathProtocol (fun state _ => state = .free) .free := by
    refine h.follows (fun state c hstate _ error => ?_) (fun state c r hstate hc => ?_) rfl
    · rw [hstate]
      exact fun h => by cases h
    · cases hstate
      cases c with
      | awaitDelivery delivery => cases hc
      | _ => rfl
  exact hfree.mono fun _ _ => rethrown_free

theorem Aside.aftermath {α : Type} {p : HandlerProg α} (h : Aside p) :
    p.Follows aftermathProtocol Rethrown .free :=
  aftermath_free (h.mono fun _ hc => hc.2)

/-- A part that goes on only with nothing recorded. -/
theorem Rethrown.andThen {α β : Type} {p : HandlerProg α} {f : α → HandlerProg β}
    (hp : p.Follows aftermathProtocol Rethrown .free)
    (hf : ∀ a, (f a).Follows aftermathProtocol Rethrown .free) :
    (p.andThen f).Follows aftermathProtocol Rethrown .free := by
  refine hp.andThen (fun state a hstate => ?_) fun state error hstate => hstate
  rw [show state = .free from hstate]
  exact hf a

/-- A delivery that fails is thrown again. -/
theorem aftermath_deliver (delivery : Delivery) :
    (deliver delivery).Follows aftermathProtocol Rethrown .free := by
  refine ⟨(fun _ h => by cases h), fun _ _ => ⟨(fun _ h => by cases h), fun result _ =>
    ⟨(fun _ h => by cases h), fun reply _ => ?_⟩⟩⟩
  cases reply with
  | error error => exact Or.inl rfl
  | ok u =>
    show Rethrown (match (deliveryVerdict result).2 with
      | .ok _ => Aftermath.free
      | .error error => .thrown error) (deliveryVerdict result).2
    cases (deliveryVerdict result).2 with
    | ok a => rfl
    | error error => exact Or.inr rfl

theorem aftermath_deliverTo (options : HandlerOptions) (job : QueueJob) (item : DispatchItem)
    (destination : String) :
    (deliverTo options job item destination).Follows aftermathProtocol Rethrown .free := by
  refine ⟨(fun _ h => by cases h), fun reply _ => ?_⟩
  rcases reply with error | ⟨attempts⟩ | ⟨retryAt⟩ | ⟨⟩ | ⟨⟩
  · exact Or.inl rfl
  · refine Rethrown.andThen ?_ fun _ => aftermath_deliver _
    unfold limitItem
    split
    · rfl
    · refine ⟨(fun _ h => by cases h), fun current _ => aftermath_free ?_⟩
      refine (limits_enforceRateLimit _).mono fun c hc => ?_
      cases c <;> first | rfl | cases hc
  all_goals rfl

/-- A delivery that has failed is the last one. -/
theorem aftermath_deliverAll (options : HandlerOptions) (job : QueueJob) (item : DispatchItem)
    (destinations : List String) (states : Fields) :
    (deliverAll options job item destinations states).Follows aftermathProtocol Rethrown .free := by
  induction destinations generalizing states with
  | nil => rfl
  | cons destination destinations ih =>
    refine Rethrown.andThen (aftermath_deliverTo options job item destination) fun result => ?_
    cases result with
    | some result => rfl
    | none => exact ih _

/-- A dispatch throws what its delivery has failed with. -/
theorem aftermath_dispatchItem (env : Env) (options : HandlerOptions) (job : QueueJob)
    (item : DispatchItem) :
    (dispatchItem env options job item).Follows aftermathProtocol Rethrown .free := by
  refine Rethrown.andThen ?_ fun limited => ?_
  · unfold limitArticle
    split
    · refine ⟨(fun _ h => by cases h), fun current _ => ⟨(fun _ h => by cases h), fun reply _ => ?_⟩⟩
      rcases reply with error | ⟨counts⟩ | ⟨counts, retryAt⟩
      · exact Or.inl rfl
      · rfl
      · rfl
    · rfl
  · cases limited with
    | some retryAt => rfl
    | none =>
      refine Rethrown.andThen (aftermath_deliverAll options job item _ []) fun end_ => ?_
      cases end_ with
      | inl result => rfl
      | inr states =>
        exact Rethrown.andThen (aside_followUp env options item).aftermath fun _ => rfl

theorem aftermath_handle (env : Env) (options : HandlerOptions) (input : Json) :
    (handle env options input).Follows aftermathProtocol Rethrown .free := by
  unfold handle
  split
  · exact Or.inl rfl
  · split
    · exact (aside_collectSource env options _ _ _).aftermath
    · exact aftermath_dispatchItem env options _ _

/-- A run of the handler that records a failure ends there, and throws it. -/
theorem recorded_thrown {env : Env} {options : HandlerOptions} {input : Json}
    {before rest : List HandlerEvent} {delivery : Delivery} {ended : Except Thrown DeliveryResult}
    {finish : EffectResult} {effectKey : String} {error : Thrown}
    {result : Except Thrown JobHandlerResult}
    (h : (handle env options input).Runs (before ++ ⟨.awaitDelivery delivery, ended⟩ ::
      ⟨.finishEffect effectKey finish, .ok ()⟩ :: rest) result)
    (hverdict : (deliveryVerdict ended).2 = .error error) : rest = [] ∧ result = .error error := by
  obtain ⟨hobeys, hend⟩ := h.obeys (aftermath_handle env options input) fun _ _ => trivial
  have hthrown : aftermathProtocol.post (aftermathProtocol.post
      (aftermathProtocol.after .free before) (.awaitDelivery delivery) ended)
      (.finishEffect effectKey finish) (.ok ()) = .thrown error := by
    simp only [aftermathProtocol, hverdict]
  have hrest := (Protocol.obeys_append.mp hobeys).2.2.2
  rw [hthrown] at hrest
  rw [Protocol.after_append, Protocol.after_cons, Protocol.after_cons, hthrown] at hend
  cases rest with
  | nil =>
    refine ⟨rfl, ?_⟩
    cases result with
    | ok a => cases hend
    | error e =>
      rcases hend with hfree | hsame
      · cases hfree
      · rw [Aftermath.thrown.inj hsame]
  | cons e rest => exact absurd rfl (hrest.1 error)

/-! ## The class of the job -/

/-- The errors that the archiver recognises, and those that were permanent when they were thrown,
keep their class. -/
def KeepsClass (raised : Raised) (errorClass : JobErrorClass) : Prop :=
  (raised.archive.Recognised = true → errorClass = .retryable) ∧
    (raised.archive.Recognised = false →
      (classifyJobFailure raised.thrown).errorClass = .permanent → errorClass = .permanent)

/-- A worker that handles a claimed job finishes what is thrown with its class. -/
theorem finished_class {env : Env} {lease : Postgres.InboxLease} {job : QueueJob} {thrown : Thrown}
    {jobId : String} {result : JobResult} {reply : Except Thrown Settlement}
    {rest : List QueueEvent} {settled : Except Thrown Settlement}
    (h : (handleClaimed env lease job).Runs
      (⟨.handle job, .error thrown⟩ :: ⟨.finishJob jobId result, reply⟩ :: rest) settled) :
    jobId = job.jobId ∧ ∃ message digest,
      result = .failed (some (classifyJobFailure thrown).errorClass) message digest := by
  obtain ⟨answer, rest', heq, hfailed⟩ := Prog.runs_call.mp h
  cases heq
  obtain ⟨answer, rest', heq, -⟩ := Prog.runs_call.mp hfailed
  cases heq
  exact ⟨rfl, _, _, rfl⟩

section Runs

variable {archiveEnv : ArchiveEnv} {archiver : ArchiverOptions} {article : ArticleItem}
  {raised : Raised} {before after : List ArchiveEvent} {ended : DeliveryResult} {env : Env}
  {options : HandlerOptions} {input : Json} {pre rest : List HandlerEvent} {delivery : Delivery}
  {finish : EffectResult} {handled : Except Thrown JobHandlerResult} {lease : Postgres.InboxLease}
  {job : QueueJob} {jobId : String} {result : JobResult} {reply settled : Except Thrown Settlement}
  {post : List QueueEvent}

/-- What is raised before the write is what the archiver ends with. -/
theorem archive_raised {e : ArchiveError}
    (hraised : (prepare archiveEnv archiver article).Runs before (.error e))
    (harchive : (archiveArticle archiveEnv archiver article).Runs (before ++ after) (.ok ended)) :
    ended = .fail true (some (safeFailureReasonCode e)) e.upstreamStatus := by
  obtain ⟨first, second, recorded, -, -, hend⟩ := Prog.runs_bind.mp (hraised.rest harchive)
  exact Except.ok.inj (Prog.runs_ret.mp hend).2

/--
**The class of a failed archive.** An error that is raised before the write goes through the
archiver, the handler and the worker: what the archiver recognises is finished as retryable, and what
it does not recognise and was permanent when it was thrown is finished as permanent.
-/
theorem retryability_kept
    (hraised : (prepare archiveEnv archiver article).Runs before (.error raised.archive))
    (harchive : (archiveArticle archiveEnv archiver article).Runs (before ++ after) (.ok ended))
    (hhandle : (handle env options input).Runs (pre ++ ⟨.awaitDelivery delivery, .ok ended⟩ ::
      ⟨.finishEffect delivery.effectKey finish, .ok ()⟩ :: rest) handled)
    (hqueue : (handleClaimed env lease job).Runs
      (⟨.handle job, handled⟩ :: ⟨.finishJob jobId result, reply⟩ :: post) settled) :
    jobId = job.jobId ∧ ∃ errorClass message digest,
      result = .failed (some errorClass) message digest ∧ KeepsClass raised errorClass := by
  obtain rfl := archive_raised hraised harchive
  cases hverdict : (deliveryVerdict (.ok (.fail true (some (safeFailureReasonCode raised.archive))
      raised.archive.upstreamStatus))).2 with
  | ok _ => simp [deliveryVerdict, outcomeUnknown] at hverdict
  | error thrown =>
    obtain ⟨-, rfl⟩ := recorded_thrown hhandle hverdict
    obtain ⟨hjob, message, digest, hresult⟩ := finished_class hqueue
    rw [archived_class raised.archive hverdict] at hresult
    refine ⟨hjob, _, message, digest, hresult, fun hrecognised => ?_, fun hnot _ => ?_⟩
    · rw [hrecognised, if_pos rfl]
    · rw [hnot, if_neg (by decide)]

end Runs

/-! ### A request that is rejected for now -/

namespace RejectedForNow

open SaveThrows (handlerOptions delivery claimedRun recordedRun)

/-- The article is one of Zhihu. -/
def archiveEnv : ArchiveEnv where
  parseUrl _ := some ⟨"zhuanlan.zhihu.com", "/p/1"⟩
  renderString _ _ := .error .other
  toLowerCase text := text
  normalizeNfkc text := text
  isLetterOrNumber c := c.isAlphanum
  sha256Hex _ := "00"

def archiver : ArchiverOptions :=
  { SaveThrows.archiverOptions with credentialName := some "zhihu", hasGetCredential := true }

def article : ArticleItem := ⟨none, none, "https://zhuanlan.zhihu.com/p/1"⟩

def raised : Raised := .zhihuRejected 503

/-- The request for the article is answered with a 503. -/
def before : List ArchiveEvent :=
  [⟨.getCredential "zhihu", .ok (some (.str "cookie"))⟩,
    ⟨.fetchZhihuArticle (.str "cookie") article.url, .error (.zhihuRejected 503)⟩]

/-- The failure is recorded. -/
def after : List ArchiveEvent :=
  [⟨.recordEvent
    { filename := none, reason := some "zhihu_api_rejected", sourceUrl := article.url
      status := "failed", title := "", urlFingerprint := "00" }, .ok ()⟩]

def ended : DeliveryResult := .fail true (some "zhihu_api_rejected") (some 503)

def finish : EffectResult := (deliveryVerdict (.ok ended)).1

def thrown : Thrown := .error false "zhihu api rejected: HTTP 503"

def job : QueueJob := Sample.articleJob Sample.firstId

def lease : Postgres.InboxLease := ⟨1, job.toJson, "m", "lease", 0⟩

/-- The path in its parts; each line is a character of it. -/
theorem splitOn_path : "/p/1".splitOn "/" = ["", "p", "1"] := by
  rw [String.splitOn, if_neg (by decide +kernel)]
  rw [String.splitOnAux, if_neg (by decide +kernel), if_pos (by decide +kernel)]
  dsimp only
  rw [if_pos (by decide +kernel)]
  rw [String.splitOnAux, if_neg (by decide +kernel), if_neg (by decide +kernel)]
  rw [String.splitOnAux, if_neg (by decide +kernel), if_pos (by decide +kernel)]
  dsimp only
  rw [if_pos (by decide +kernel)]
  rw [String.splitOnAux, if_neg (by decide +kernel), if_neg (by decide +kernel)]
  rw [String.splitOnAux, if_pos (by decide +kernel)]
  decide +kernel

theorem isZhihu : isZhihuArticle archiveEnv article.url = some true := by
  simp [isZhihuArticle, archiveEnv, splitOn_path]

theorem prepare_runs : (prepare archiveEnv archiver article).Runs before (.error raised.archive) := by
  unfold prepare extract
  rw [isZhihu]
  exact Prog.runs_of_replay (by decide +kernel)

theorem archive_runs : (archiveArticle archiveEnv archiver article).Runs (before ++ after)
    (.ok ended) := by
  unfold archiveArticle prepare extract
  rw [isZhihu]
  exact Prog.runs_of_replay (by decide +kernel)

theorem handle_runs : (handle Sample.env handlerOptions job.toJson).Runs
    (claimedRun ++ ⟨.awaitDelivery delivery, .ok ended⟩ ::
      ⟨.finishEffect delivery.effectKey finish, .ok ()⟩ :: []) (.error thrown) :=
  Prog.runs_of_replay (by decide +kernel)

/-- The job is finished as retryable. -/
def result : JobResult := .failed (some .retryable) (some "zhihu api rejected: HTTP 503")
  (some (Sample.env.digestPayload lease.body))

theorem queue_runs : (handleClaimed Sample.env lease job).Runs
    (⟨.handle job, .error thrown⟩ :: ⟨.finishJob job.jobId result, .ok (.retry none)⟩ :: [])
    (.ok (.retry none)) := Prog.runs_of_replay (by decide +kernel)

theorem retryability_kept_rejected : job.jobId = job.jobId ∧ ∃ errorClass message digest,
    result = .failed (some errorClass) message digest ∧ KeepsClass raised errorClass :=
  retryability_kept prepare_runs archive_runs handle_runs queue_runs

/-- The error is permanent when it is thrown, and the job may be tried again. -/
theorem class_changed :
    ¬ ∀ archiveEnv archiver article raised before after ended env options input pre rest delivery
      finish handled lease job jobId result reply settled post,
      (prepare archiveEnv archiver article).Runs before (.error (Raised.archive raised)) →
      (archiveArticle archiveEnv archiver article).Runs (before ++ after) (.ok ended) →
      (handle env options input).Runs (pre ++ ⟨.awaitDelivery delivery, .ok ended⟩ ::
        ⟨.finishEffect delivery.effectKey finish, .ok ()⟩ :: rest) handled →
      (handleClaimed env lease job).Runs
        (⟨.handle job, handled⟩ :: ⟨.finishJob jobId result, reply⟩ :: post) settled →
      ∃ message digest, result =
        .failed (some (classifyJobFailure (Raised.thrown raised)).errorClass) message digest := by
  intro h
  obtain ⟨message, digest, hresult⟩ := h _ _ _ raised _ _ _ _ _ _ _ _ _ _ _ _ _ _ _ _ _ _
    prepare_runs archive_runs handle_runs queue_runs
  have hpermanent : (classifyJobFailure raised.thrown).errorClass = .permanent := by decide +kernel
  rw [hpermanent] at hresult
  cases hresult

end RejectedForNow

end InboxServer
