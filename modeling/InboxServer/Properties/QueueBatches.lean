import InboxServer.Api.QueueProducer
import InboxServer.Infra.Packing
import InboxServer.Properties.Sample

/-!
# What the queue producer sends

* `queueSendBatch_sends` — one bad input and nothing is sent; else the jobs go out in order, in
  batches within the limits of the platform, up to the first that fails
-/

namespace InboxServer

open Infra

/-- An input that `parseQueueJob` rejects, or whose message is too large. -/
def Rejects (zod : Zod) (input : Json) : Prop :=
  ∀ body, parseQueueJob zod input = some body → 128000 < messageBytes body

theorem queueMessage_error {zod : Zod} {input : Json} :
    (∃ e, queueMessage zod input = .error e) ↔ Rejects zod input := by
  unfold queueMessage Rejects
  cases parseQueueJob zod input with
  | none => simp
  | some body =>
    dsimp only
    split
    · next hlarge => simpa using hlarge
    · next hsmall => simpa using hsmall

theorem queueMessage_ok {zod : Zod} {input : Json} {body : QueueJob}
    (h : queueMessage zod input = .ok body) :
    parseQueueJob zod input = some body ∧ messageBytes body ≤ 128000 := by
  unfold queueMessage at h
  cases hparse : parseQueueJob zod input with
  | none => simp [hparse] at h
  | some parsed =>
    rw [hparse] at h
    dsimp only at h
    split at h
    · cases h
    · next hsmall =>
      obtain rfl := Except.ok.inj h
      exact ⟨rfl, not_lt.mp hsmall⟩

/-! ## The loop -/

def sentOk (batch : List QueueJob) : SendEvent := ⟨⟨batch⟩, .ok ()⟩

/-- The batches go out in order, all of them or up to the first that throws. -/
def BatchesPublished (batches : List (List QueueJob)) (trace : List SendEvent)
    (result : Except ErrorText Unit) : Prop :=
  trace = batches.map sentOk ∧ result = .ok () ∨
    ∃ sent failed rest e, batches = sent ++ failed :: rest ∧
      trace = sent.map sentOk ++ [⟨⟨failed⟩, .error e⟩] ∧ result = .error e

theorem BatchesPublished.cons {batches : List (List QueueJob)} {trace : List SendEvent}
    {result : Except ErrorText Unit} (h : BatchesPublished batches trace result) (batch : List QueueJob) :
    BatchesPublished (batch :: batches) (sentOk batch :: trace) result := by
  rcases h with ⟨rfl, hresult⟩ | ⟨sent, failed, rest, e, rfl, rfl, hresult⟩
  · exact Or.inl ⟨rfl, hresult⟩
  · exact Or.inr ⟨batch :: sent, failed, rest, e, rfl, rfl, hresult⟩

/-- A call that throws ends the loop, and one that returns goes on. -/
theorem published_call {batch : List QueueJob} {rest : List (List QueueJob)}
    {k : Except ErrorText Unit → Producing} {trace : List SendEvent} {result : Except ErrorText Unit}
    (h : (Prog.call ⟨batch⟩ k : Producing).Runs trace result)
    (hthrows : ∀ e, k (.error e) = .ret (.error e))
    (hreturns : ∀ trace, (k (.ok ())).Runs trace result → BatchesPublished rest trace result) :
    BatchesPublished (batch :: rest) trace result := by
  obtain ⟨reply, later, rfl, hlater⟩ := Prog.runs_call.mp h
  cases reply with
  | error e =>
    rw [hthrows] at hlater
    obtain ⟨rfl, rfl⟩ := Prog.runs_ret.mp hlater
    exact Or.inr ⟨[], batch, rest, e, rfl, rfl, rfl⟩
  | ok => exact (hreturns later hlater).cons batch

theorem sendMessages_published {batch messages : List QueueJob} {trace : List SendEvent}
    {result : Except ErrorText Unit}
    (h : (sendMessages batch (totalWeight messageBytes batch) messages).Runs trace result) :
    BatchesPublished (pack messageBytes 100 256000 batch messages) trace result := by
  induction messages generalizing batch trace with
  | nil =>
    unfold sendMessages at h
    unfold pack
    by_cases hempty : batch = []
    · rw [if_pos hempty]
      rw [if_neg (by simp [hempty])] at h
      exact Or.inl (Prog.runs_ret.mp h)
    · rw [if_neg hempty]
      rw [if_pos (List.length_pos_iff.mpr hempty)] at h
      refine published_call h (fun _ => rfl) (fun later hlater => ?_)
      exact Or.inl (Prog.runs_ret.mp hlater)
  | cons body messages ih =>
    unfold sendMessages at h
    unfold pack
    by_cases hfull : batch.length = 100 ∨
        totalWeight messageBytes batch + messageBytes body > 256000
    · rw [if_pos hfull]
      rw [if_pos (by simpa using hfull)] at h
      refine published_call h (fun _ => rfl) (fun later hlater => ih ?_)
      rw [totalWeight_singleton]
      exact hlater
    · rw [if_neg hfull]
      rw [if_neg (by simpa using hfull)] at h
      refine ih ?_
      rw [totalWeight_append, totalWeight_singleton]
      exact h

/-! ## All of it -/

/-- The jobs in order, in batches within the limits, none of which would hold the next as well. -/
structure Batched (jobs : List QueueJob) (batches : List (List QueueJob)) : Prop where
  flatten : batches.flatten = jobs
  bounded : ∀ batch ∈ batches, Bounded messageBytes 100 256000 batch
  tight : batches.IsChain (Apart messageBytes 100 256000)

theorem batched_pack {jobs : List QueueJob} (h : ∀ job ∈ jobs, messageBytes job ≤ 128000) :
    Batched jobs (pack messageBytes 100 256000 [] jobs) where
  flatten := flatten_pack [] jobs
  bounded _ hbatch :=
    bounded_of_mem_pack (by decide) ⟨Nat.zero_le _, Nat.zero_le _⟩
      (fun job hjob => (h job hjob).trans (by decide)) hbatch
  tight := pack_tight [] jobs

/-- What a run of `sendBatch` does. -/
structure Sends (zod : Zod) (inputs : List Json) (trace : List SendEvent)
    (result : Except ErrorText Unit) : Prop where
  rejected : (∃ input ∈ inputs, Rejects zod input) → trace = [] ∧ ∃ e, result = .error e
  sent : (∀ input ∈ inputs, ¬ Rejects zod input) → ∃ jobs batches,
    inputs.mapM (parseQueueJob zod) = some jobs ∧ Batched jobs batches ∧
      BatchesPublished batches trace result

theorem mapM_queueMessage_error {zod : Zod} {inputs : List Json} {e : ErrorText}
    (h : inputs.mapM (queueMessage zod) = .error e) : ∃ input ∈ inputs, Rejects zod input := by
  induction inputs with
  | nil => cases h
  | cons input inputs ih =>
    rw [List.mapM_cons] at h
    cases hmessage : queueMessage zod input with
    | error e' => exact ⟨input, List.mem_cons_self, queueMessage_error.mp ⟨e', hmessage⟩⟩
    | ok body =>
      rw [hmessage] at h
      cases hrest : inputs.mapM (queueMessage zod) with
      | error e' =>
        obtain ⟨bad, hbad, hrejects⟩ := ih (by rw [hrest] at h ⊢; exact h)
        exact ⟨bad, List.mem_cons_of_mem _ hbad, hrejects⟩
      | ok bodies =>
        rw [hrest] at h
        cases h

theorem mapM_queueMessage_ok {zod : Zod} {inputs : List Json} {jobs : List QueueJob}
    (h : inputs.mapM (queueMessage zod) = .ok jobs) :
    inputs.mapM (parseQueueJob zod) = some jobs ∧ (∀ job ∈ jobs, messageBytes job ≤ 128000) ∧
      ∀ input ∈ inputs, ¬ Rejects zod input := by
  induction inputs generalizing jobs with
  | nil =>
    cases h
    exact ⟨rfl, by simp, by simp⟩
  | cons input inputs ih =>
    rw [List.mapM_cons] at h
    cases hmessage : queueMessage zod input with
    | error e' =>
      rw [hmessage] at h
      cases h
    | ok body =>
      rw [hmessage] at h
      cases hrest : inputs.mapM (queueMessage zod) with
      | error e' =>
        rw [hrest] at h
        cases h
      | ok bodies =>
        rw [hrest] at h
        obtain rfl := Except.ok.inj h
        obtain ⟨hparse, hsmall⟩ := queueMessage_ok hmessage
        obtain ⟨hparses, hsmalls, hnone⟩ := ih hrest
        refine ⟨by rw [List.mapM_cons, hparse, hparses]; rfl, ?_, ?_⟩
        · exact List.forall_mem_cons.mpr ⟨hsmall, hsmalls⟩
        · refine List.forall_mem_cons.mpr ⟨fun hrejects => ?_, hnone⟩
          exact absurd (hrejects body hparse) (not_lt.mpr hsmall)

/--
**The producer sends all or, before it has sent anything, refuses**: jobs go out in order, in full
batches within the limits of the platform, up to the first batch that fails.
-/
theorem queueSendBatch_sends {zod : Zod} {inputs : List Json} {trace : List SendEvent}
    {result : Except ErrorText Unit} (h : (queueSendBatch zod inputs).Runs trace result) :
    Sends zod inputs trace result := by
  unfold queueSendBatch at h
  cases hmessages : inputs.mapM (queueMessage zod) with
  | error e =>
    rw [hmessages] at h
    obtain ⟨rfl, rfl⟩ := Prog.runs_ret.mp h
    refine ⟨fun _ => ⟨rfl, e, rfl⟩, fun hnone => ?_⟩
    obtain ⟨input, hinput, hrejects⟩ := mapM_queueMessage_error hmessages
    exact absurd hrejects (hnone input hinput)
  | ok jobs =>
    rw [hmessages] at h
    obtain ⟨hparse, hsmall, hnone⟩ := mapM_queueMessage_ok hmessages
    refine ⟨?_, fun _ => ⟨jobs, _, hparse, batched_pack hsmall, sendMessages_published h⟩⟩
    rintro ⟨input, hinput, hrejects⟩
    exact absurd hrejects (hnone input hinput)

/-- One input more than a batch holds. -/
def fullAndOne : List Json := List.replicate 101 (Sample.textJob Sample.firstId).toJson

theorem queueSendBatch_sends_two :
    Sends Sample.zod fullAndOne
      [sentOk (List.replicate 100 (Sample.textJob Sample.firstId)),
        sentOk [Sample.textJob Sample.firstId]] (.ok ()) := by
  have hrun : (queueSendBatch Sample.zod fullAndOne).answered (fun _ => .ok ()) =
      ([sentOk (List.replicate 100 (Sample.textJob Sample.firstId)),
        sentOk [Sample.textJob Sample.firstId]], .ok ()) := by
    decide +kernel
  have hruns := Prog.runs_answered (fun _ : SendBatch => (.ok () : Except ErrorText Unit))
    (queueSendBatch Sample.zod fullAndOne)
  rw [hrun] at hruns
  exact queueSendBatch_sends hruns

end InboxServer
