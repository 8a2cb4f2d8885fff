import InboxServer.Api.Postgres.Effects
import InboxServer.Domain.CivilDate

/-!
# The rate limits of an item

`ratePolicy` and `rateLimitInputs` of `apps/worker/src/job-handler.ts`: the limits of each kind of
item, and the buckets that an item falls into at an instant. A day is a Shanghai day, and a window
is counted from the epoch.

* `shanghaiDate_inj` — two days have two texts
-/

namespace InboxServer

/-! ## Dates -/

/-- `Asia/Shanghai` has been eight hours ahead of UTC, without daylight saving, since 1992. -/
def shanghaiOffset : Instant := 8 * 3600000

/-- 1 January 1992. -/
def sinceShanghaiOffset : Instant := 694224000000

/-- The Shanghai day of an instant, counted from the day of the epoch. -/
def shanghaiDay (current : Instant) : Int := (current + shanghaiOffset) / 86400000

def pad2 (n : Nat) : String := if n < 10 then "0" ++ toString n else toString n

/-- The `en-CA` text of a date; a year before the first counts backwards. -/
def CivilDate.text (date : CivilDate) : String :=
  toString (if 0 < date.year then date.year else 1 - date.year).toNat ++ "-" ++
    pad2 date.month.toNat ++ "-" ++ pad2 date.day.toNat

/-- `new Intl.DateTimeFormat("en-CA", ...).format(current)` -/
def shanghaiDate (current : Instant) : String := (civilDate (shanghaiDay current)).text

example : shanghaiDate 1772294400000 = "2026-03-01" := by decide

/-! ## Policies -/

/-- The limits in `channels.article_archive`, which its schema wants positive. -/
structure ArticleArchive where
  dailyLimit : Nat
  rateWindowCount : Nat
  rateWindowSeconds : Nat
  dailyLimit_pos : 0 < dailyLimit
  rateWindowCount_pos : 0 < rateWindowCount
  rateWindowSeconds_pos : 0 < rateWindowSeconds

structure RatePolicy where
  dailyLimit : Option Nat
  windowCount : Nat
  windowSeconds : Nat
  deriving DecidableEq

/-- `ratePolicy(channels, itemKind)` -/
def ratePolicy (archive : ArticleArchive) : ItemKind → RatePolicy
  | .link => { dailyLimit := some 500, windowCount := 0, windowSeconds := 21600 }
  | .text => { dailyLimit := some 96, windowCount := 25, windowSeconds := 21600 }
  | .file => { dailyLimit := none, windowCount := 1400, windowSeconds := 1800 }
  | .article =>
    { dailyLimit := some archive.dailyLimit, windowCount := archive.rateWindowCount
      windowSeconds := archive.rateWindowSeconds }

/-! ## Inputs -/

def dailyScope (itemKind : ItemKind) : String := itemKind.name ++ ":daily"

def windowScope (itemKind : ItemKind) : String := itemKind.name ++ ":window"

/-- `Math.floor(current.getTime() / (policy.windowSeconds * 1_000))` -/
def windowNumber (windowSeconds : Nat) (current : Instant) : Int := current / (windowSeconds * 1000)

/-- The inputs of a policy, as `rateLimitInputs` builds them. -/
def RatePolicy.inputs (policy : RatePolicy) (itemKind : ItemKind) (current : Instant) :
    List RateLimitInput :=
  (policy.dailyLimit.map fun limit =>
    { bucketKey := shanghaiDate current, limit, scope := dailyScope itemKind
      windowSeconds := 86400 }).toList ++
  if policy.windowCount > 0 then
    [{ bucketKey := toString (windowNumber policy.windowSeconds current)
       limit := policy.windowCount, scope := windowScope itemKind
       windowSeconds := policy.windowSeconds }]
  else []

/-- `rateLimitInputs(channels, item, current)` -/
def rateLimitInputs (archive : ArticleArchive) (item : DispatchItem) (current : Instant) :
    List RateLimitInput :=
  (ratePolicy archive item.itemKind).inputs item.itemKind current

/-! ## Buckets have one text each -/

theorem toString_nat_inj {m n : Nat} (h : toString m = toString n) : m = n := by
  have hdigits : Nat.toDigits 10 m = Nat.toDigits 10 n := by
    rw [← Nat.toList_repr, ← Nat.toList_repr]
    exact congrArg String.toList h
  have hread := congrArg (Nat.ofDigitChars 10 · 0) hdigits
  simpa using hread

theorem dash_not_mem_toString (n : Nat) : '-' ∉ (toString n).toList := by
  intro h
  exact absurd (isDigit_of_mem_toString h) (by decide)

theorem dash_not_mem_pad2 (n : Nat) : '-' ∉ (pad2 n).toList := by
  unfold pad2
  split
  · simpa using dash_not_mem_toString n
  · exact dash_not_mem_toString n

/-- A padded number reads as the number. -/
theorem ofDigitChars_pad2 (n : Nat) : Nat.ofDigitChars 10 (pad2 n).toList 0 = n := by
  have hread : Nat.ofDigitChars 10 (toString n).toList 0 = n := by
    show Nat.ofDigitChars 10 n.repr.toList 0 = n
    rw [Nat.toList_repr, Nat.ofDigitChars_ten_toDigits]
  unfold pad2
  split
  · rw [String.toList_append]
    exact hread
  · exact hread

theorem pad2_inj {m n : Nat} (h : pad2 m = pad2 n) : m = n := by
  rw [← ofDigitChars_pad2 m, ← ofDigitChars_pad2 n, h]

/-- Dates of our era have one text each. -/
theorem CivilDate.text_inj {a b : CivilDate} (ha : 0 < a.year ∧ 0 < a.month ∧ 0 < a.day)
    (hb : 0 < b.year ∧ 0 < b.month ∧ 0 < b.day) (h : a.text = b.text) : a = b := by
  have hlists := congrArg String.toList h
  simp only [CivilDate.text, if_pos ha.1, if_pos hb.1, String.toList_append, List.append_assoc]
    at hlists
  obtain ⟨hyear, hrest⟩ := append_cons_inj (dash_not_mem_toString _) (dash_not_mem_toString _) hlists
  obtain ⟨hmonth, hday⟩ := append_cons_inj (dash_not_mem_pad2 _) (dash_not_mem_pad2 _) hrest
  have h1 := toString_nat_inj (String.toList_inj.mp hyear)
  have h2 := pad2_inj (String.toList_inj.mp hmonth)
  have h3 := pad2_inj (String.toList_inj.mp hday)
  cases a
  cases b
  simp only [CivilDate.mk.injEq] at *
  omega

theorem shanghaiDay_mono {s t : Instant} (h : s ≤ t) : shanghaiDay s ≤ shanghaiDay t := by
  simp only [shanghaiDay, shanghaiOffset, Instant] at *
  omega

/-- After 1992, two days have two texts. -/
theorem shanghaiDate_inj {s t : Instant} (hs : sinceShanghaiOffset ≤ s)
    (ht : sinceShanghaiOffset ≤ t) (h : shanghaiDate s = shanghaiDate t) :
    shanghaiDay s = shanghaiDay t := by
  have hyear : ∀ u : Instant, sinceShanghaiOffset ≤ u → 0 < (civilDate (shanghaiDay u)).year := by
    intro u hu
    obtain ⟨hsum, h1, h2, h3, h4, -⟩ := dayParts_of (shanghaiDay u)
    have hday : 8035 ≤ shanghaiDay u := shanghaiDay_mono hu
    by_cases hm : (dayParts (shanghaiDay u)).month < 10 <;>
      simp only [civilDate, hm, if_true, if_false] <;> omega
  exact civilDate_inj (CivilDate.text_inj ⟨hyear s hs, civilDate_pos _⟩ ⟨hyear t ht, civilDate_pos _⟩ h)

theorem windowNumber_mono {windowSeconds : Nat} (hpos : 0 < windowSeconds) {s t : Instant}
    (h : s ≤ t) : windowNumber windowSeconds s ≤ windowNumber windowSeconds t :=
  Int.ediv_le_ediv (by positivity) h

theorem windowNumber_nonneg (windowSeconds : Nat) {t : Instant} (h : 0 ≤ t) :
    0 ≤ windowNumber windowSeconds t :=
  Int.ediv_nonneg h (by positivity)

theorem toString_int_inj {m n : Int} (hm : 0 ≤ m) (hn : 0 ≤ n) (h : toString m = toString n) :
    m = n := by
  obtain ⟨a, rfl⟩ := Int.eq_ofNat_of_zero_le hm
  obtain ⟨b, rfl⟩ := Int.eq_ofNat_of_zero_le hn
  exact congrArg Int.ofNat (toString_nat_inj h)

end InboxServer
