import Mathlib.Algebra.Order.Group.Defs
import Mathlib.Data.List.Count

/-!
# Fixed windows

A limiter of one client.  The first attempt opens a window, admitted attempts are
counted in it, and the next window opens with the first attempt after its end, if
there is room for one.  The windows of a client never overlap, so that no interval
as long as a window meets three of them.
-/

namespace OpsUp.Limits

/-- A window: the time at which it ends and the attempts it has admitted. -/
structure Bucket (T : Type) where
  untilTime : T
  count : Nat

/-- What an attempt comes to, with the window it was judged by. -/
structure Verdict (T : Type) where
  blocked : Bool
  value : Bucket T

/-- One attempt of the client and its verdict. -/
structure Entry (T : Type) where
  now : T
  verdict : Verdict T

/-- An admitted attempt and the end of its window. -/
structure Admission (T : Type) where
  now : T
  untilTime : T

variable {T : Type}

def Entry.admission (entry : Entry T) : Option (Admission T) :=
  if entry.verdict.blocked then none else some ⟨entry.now, entry.verdict.value.untilTime⟩

/-! ## Windows that last -/

section Lasting

variable [LinearOrder T] {now later : T} {slot : Option (Bucket T)} {bucket : Bucket T}

/-- The window, while it lasts. -/
def live (now : T) (slot : Option (Bucket T)) : Option (Bucket T) :=
  slot.filter fun bucket => now < bucket.untilTime

theorem live_eq_some_iff :
    live now slot = some bucket ↔ slot = some bucket ∧ now < bucket.untilTime := by
  simp [live, Option.filter_eq_some_iff]

theorem live_eq_none_iff :
    live now slot = none ↔ ∀ bucket, slot = some bucket → bucket.untilTime ≤ now := by
  simp [live, Option.filter_eq_none_iff]

/-- A window that has ended stays ended. -/
theorem live_live (ordered : now ≤ later) (slot : Option (Bucket T)) :
    live later (live now slot) = live later slot := by
  apply Option.ext
  intro bucket
  rw [live_eq_some_iff, live_eq_some_iff, live_eq_some_iff]
  constructor
  · rintro ⟨⟨hslot, -⟩, hlasts⟩
    exact ⟨hslot, hlasts⟩
  · rintro ⟨hslot, hlasts⟩
    exact ⟨⟨hslot, lt_of_le_of_lt ordered hlasts⟩, hlasts⟩

end Lasting

/-! ## The limiter -/

variable [AddCommGroup T] [LinearOrder T]

/-- A window that lasts admits up to the limit; a new one needs room. -/
def judge (limit : Nat) (window : T) (room : Bool) (now : T) (slot : Option (Bucket T)) :
    Verdict T :=
  let value := (live now slot).getD ⟨now + window, 0⟩
  ⟨decide (limit ≤ value.count) || ((live now slot).isNone && !room), value⟩

/-- The window after an attempt. -/
def settle (now : T) (slot : Option (Bucket T)) (verdict : Verdict T) : Option (Bucket T) :=
  if verdict.blocked then live now slot
  else some { verdict.value with count := verdict.value.count + 1 }

/-- Attempts at their times, with or without room for a new window. -/
def serve (limit : Nat) (window : T) : Option (Bucket T) → List (T × Bool) → List (Entry T)
  | _, [] => []
  | slot, (now, room) :: rest =>
      let verdict := judge limit window room now slot
      ⟨now, verdict⟩ :: serve limit window (settle now slot verdict) rest

/-- Whenever a new window is wanted there is room for it. -/
def Roomy (limit : Nat) (window : T) : Option (Bucket T) → List (T × Bool) → Prop
  | _, [] => True
  | slot, (now, room) :: rest =>
      (live now slot = none → 0 < limit → room = true) ∧
        Roomy limit window (settle now slot (judge limit window room now slot)) rest

/-- Room matters to new windows only. -/
theorem judge_of_room {limit : Nat} (window : T) {now : T} {room : Bool} {slot : Option (Bucket T)}
    (roomy : live now slot = none → 0 < limit → room = true) :
    judge limit window room now slot = judge limit window true now slot := by
  unfold judge
  cases hlive : live now slot with
  | some bucket => rfl
  | none =>
      rcases Nat.eq_zero_or_pos limit with rfl | hpositive
      · rfl
      · rw [roomy hlive hpositive]

/-- A limiter that always has room when it needs it is one that always has room. -/
theorem serve_of_roomy {limit : Nat} {window : T} {slot : Option (Bucket T)}
    {attempts : List (T × Bool)} (roomy : Roomy limit window slot attempts) :
    serve limit window slot attempts =
      serve limit window slot (attempts.map fun attempt => (attempt.1, true)) := by
  induction attempts generalizing slot with
  | nil => rfl
  | cons attempt rest ih =>
      obtain ⟨now, room⟩ := attempt
      obtain ⟨hroom, hrest⟩ := roomy
      have hjudge := judge_of_room window hroom
      rw [hjudge] at hrest
      rw [List.map_cons, serve, serve, hjudge, ih hrest]

/-! ## What a limiter has admitted -/

/-- The windows of the past are filled at most to the limit, lie apart from each other and
have ended, but for the one in the slot. -/
structure Sound (limit : Nat) (window clock : T) (slot : Option (Bucket T))
    (admitted : List (Admission T)) : Prop where
  within : ∀ a ∈ admitted, a.now < a.untilTime ∧ a.untilTime ≤ a.now + window
  apart : ∀ a ∈ admitted, ∀ b ∈ admitted, a.untilTime < b.untilTime →
    a.untilTime + window ≤ b.untilTime
  filled : ∀ untilTime, admitted.countP (fun a => a.untilTime = untilTime) ≤ limit
  counted : ∀ bucket, slot = some bucket →
    bucket.count = admitted.countP fun a => a.untilTime = bucket.untilTime
  begun : ∀ bucket, slot = some bucket → bucket.untilTime ≤ clock + window
  latest : ∀ bucket, slot = some bucket → ∀ a ∈ admitted,
    a.untilTime = bucket.untilTime ∨ a.untilTime + window ≤ bucket.untilTime
  ended : ∀ a ∈ admitted,
    a.untilTime ≤ clock ∨ ∃ bucket, slot = some bucket ∧ bucket.untilTime = a.untilTime

namespace Sound

variable {limit : Nat} {window clock now : T} {slot : Option (Bucket T)} {bucket : Bucket T}
  {admitted : List (Admission T)}

theorem initial (limit : Nat) (window clock : T) : Sound limit window clock none [] where
  within := nofun
  apart := nofun
  filled := fun _ => Nat.zero_le _
  counted := nofun
  begun := nofun
  latest := nofun
  ended := nofun

variable [IsOrderedAddMonoid T]

/-- Time passes, and a window that has ended is forgotten. -/
theorem pass (sound : Sound limit window clock slot admitted) (ordered : clock ≤ now) :
    Sound limit window now (live now slot) admitted where
  within := sound.within
  apart := sound.apart
  filled := sound.filled
  counted := fun bucket h => sound.counted bucket (live_eq_some_iff.mp h).1
  begun := fun bucket h =>
    le_trans (sound.begun bucket (live_eq_some_iff.mp h).1) (add_le_add_left ordered window)
  latest := fun bucket h => sound.latest bucket (live_eq_some_iff.mp h).1
  ended := by
    intro a ha
    rcases sound.ended a ha with hclock | ⟨bucket, hslot, huntil⟩
    · exact Or.inl (le_trans hclock ordered)
    · by_cases hlasts : now < bucket.untilTime
      · exact Or.inr ⟨bucket, live_eq_some_iff.mpr ⟨hslot, hlasts⟩, huntil⟩
      · left
        rw [← huntil]
        exact not_lt.mp hlasts

/-- An attempt is admitted by a window that all others lie before, and is counted in it. -/
theorem admits (sound : Sound limit window now slot admitted) (positive : 0 < window)
    (lasts : now < bucket.untilTime) (begun : bucket.untilTime ≤ now + window)
    (latest : ∀ a ∈ admitted,
      a.untilTime = bucket.untilTime ∨ a.untilTime + window ≤ bucket.untilTime)
    (counted : bucket.count = admitted.countP fun a => a.untilTime = bucket.untilTime)
    (ended : ∀ a ∈ admitted, a.untilTime ≤ now ∨ a.untilTime = bucket.untilTime)
    (left : bucket.count < limit) :
    Sound limit window now (some { bucket with count := bucket.count + 1 })
      (admitted ++ [⟨now, bucket.untilTime⟩]) := by
  have hcount : ∀ untilTime : T,
      (admitted ++ [Admission.mk now bucket.untilTime]).countP (fun a => a.untilTime = untilTime) =
        admitted.countP (fun a => a.untilTime = untilTime) +
          if bucket.untilTime = untilTime then 1 else 0 := by
    intro untilTime
    rw [List.countP_append, List.countP_singleton]
    simp only [decide_eq_true_eq]
  have hlatest : ∀ a ∈ admitted ++ [Admission.mk now bucket.untilTime],
      a.untilTime = bucket.untilTime ∨ a.untilTime + window ≤ bucket.untilTime := by
    intro a ha
    rcases List.mem_append.mp ha with ha | ha
    · exact latest a ha
    · obtain rfl := List.mem_singleton.mp ha
      exact Or.inl rfl
  constructor
  · intro a ha
    rcases List.mem_append.mp ha with ha | ha
    · exact sound.within a ha
    · obtain rfl := List.mem_singleton.mp ha
      exact ⟨lasts, begun⟩
  · intro a ha b hb hless
    -- the new attempt belongs to the last window, so it is never the earlier of the two
    rcases List.mem_append.mp hb with hb' | hb'
    · rcases List.mem_append.mp ha with ha | ha
      · exact sound.apart a ha b hb' hless
      · obtain rfl := List.mem_singleton.mp ha
        rcases latest b hb' with hsame | hbefore
        · exact absurd hsame hless.ne'
        · grind
    · obtain rfl := List.mem_singleton.mp hb'
      exact (hlatest a ha).resolve_left hless.ne
  · intro untilTime
    rw [hcount]
    split
    · next hsame =>
        rw [← hsame, ← counted]
        exact left
    · exact sound.filled untilTime
  · rintro _ ⟨⟩
    rw [hcount, if_pos rfl, ← counted]
  · rintro _ ⟨⟩
    exact begun
  · rintro _ ⟨⟩
    exact hlatest
  · intro a ha
    rcases List.mem_append.mp ha with ha | ha
    · rcases ended a ha with hclock | hsame
      · exact Or.inl hclock
      · exact Or.inr ⟨_, rfl, hsame.symm⟩
    · obtain rfl := List.mem_singleton.mp ha
      exact Or.inr ⟨_, rfl, rfl⟩

/-- One attempt, however it is judged. -/
theorem attempt (sound : Sound limit window clock slot admitted) (positive : 0 < window)
    (ordered : clock ≤ now) (room : Bool) :
    Sound limit window now (settle now slot (judge limit window room now slot))
      (admitted ++ (Entry.admission ⟨now, judge limit window room now slot⟩).toList) := by
  have hpassed := sound.pass ordered
  by_cases hblocked : (judge limit window room now slot).blocked = true
  · rw [settle, if_pos hblocked, Entry.admission, if_pos hblocked]
    simpa using hpassed
  · rw [settle, if_neg hblocked, Entry.admission, if_neg hblocked, Option.toList_some]
    have hleft : (judge limit window room now slot).value.count < limit := by
      simp only [judge, Bool.or_eq_true, decide_eq_true_eq, not_or, not_le] at hblocked
      exact hblocked.1
    cases hlive : live now slot with
    | some bucket =>
        have hvalue : (judge limit window room now slot).value = bucket := by
          simp only [judge, hlive, Option.getD_some]
        rw [hlive] at hpassed
        rw [hvalue] at hleft ⊢
        have hlasts := (live_eq_some_iff.mp hlive).2
        apply hpassed.admits positive hlasts (hpassed.begun bucket rfl) (hpassed.latest bucket rfl)
          (hpassed.counted bucket rfl) _ hleft
        intro a ha
        apply (hpassed.ended a ha).imp_right
        rintro ⟨_, ⟨⟩, hsame⟩
        exact hsame.symm
    | none =>
        have hvalue : (judge limit window room now slot).value = ⟨now + window, 0⟩ := by
          simp only [judge, hlive, Option.getD_none]
        rw [hlive] at hpassed
        rw [hvalue] at hleft ⊢
        have hended : ∀ a ∈ admitted, a.untilTime ≤ now := by
          intro a ha
          exact (hpassed.ended a ha).resolve_right nofun
        have hnew : now < now + window := lt_add_of_pos_right now positive
        apply hpassed.admits positive hnew (le_refl _)
        · intro a ha
          exact Or.inr (add_le_add_left (hended a ha) window)
        · symm
          rw [List.countP_eq_zero]
          intro a ha
          simp only [decide_eq_true_eq]
          exact (lt_of_le_of_lt (hended a ha) hnew).ne
        · exact fun a ha => Or.inl (hended a ha)
        · exact hleft

/-- Attempts in the order of their times. -/
theorem serve (sound : Sound limit window clock slot admitted) (positive : 0 < window)
    {attempts : List (T × Bool)} (ordered : (attempts.map Prod.fst).Pairwise (· ≤ ·))
    (later : ∀ attempt ∈ attempts, clock ≤ attempt.1) :
    ∃ last final, Sound limit window last final
      (admitted ++ (serve limit window slot attempts).filterMap Entry.admission) := by
  induction attempts generalizing clock slot admitted with
  | nil => exact ⟨clock, slot, by simpa [Limits.serve] using sound⟩
  | cons attempt rest ih =>
      obtain ⟨now, room⟩ := attempt
      rw [List.map_cons, List.pairwise_cons] at ordered
      have hattempt := sound.attempt positive (later (now, room) (by simp)) room
      have hlater : ∀ other ∈ rest, now ≤ other.1 := fun other hother =>
        ordered.1 other.1 (List.mem_map_of_mem hother)
      obtain ⟨last, final, hfinal⟩ := ih hattempt ordered.2 hlater
      refine ⟨last, final, ?_⟩
      rw [List.append_assoc] at hfinal
      rw [Limits.serve, List.filterMap_cons]
      cases hadmission : Entry.admission ⟨now, judge limit window room now slot⟩ with
      | none => simpa [hadmission] using hfinal
      | some admission => simpa [hadmission] using hfinal

end Sound

/-! ## Intervals -/

theorem countP_or_le {α : Type} (first second : α → Bool) (values : List α) :
    values.countP (fun value => first value || second value) ≤
      values.countP first + values.countP second := by
  induction values with
  | nil => exact Nat.zero_le _
  | cons value rest ih =>
      simp only [List.countP_cons]
      cases first value <;> cases second value <;> simp <;> omega

section Intervals

variable [IsOrderedAddMonoid T] {limit : Nat} {window clock : T} {slot : Option (Bucket T)}
  {admitted : List (Admission T)}

/-- The attempts of an interval as long as a window belong to two windows at most. -/
theorem Sound.two_windows (sound : Sound limit window clock slot admitted) (start : T)
    {a b c : Admission T} (ha : a ∈ admitted) (hb : b ∈ admitted) (hc : c ∈ admitted)
    (first : start ≤ a.now) (last : c.now < start + window)
    (less : a.untilTime < b.untilTime) : ¬ b.untilTime < c.untilTime := by
  intro hless
  have hab := sound.apart a ha b hb less
  have hbc := sound.apart b hb c hc hless
  have hstart : start < a.untilTime := lt_of_le_of_lt first (sound.within a ha).1
  have hstop := (sound.within c hc).2
  grind

/-- An interval as long as a window admits at most what two windows admit. -/
theorem Sound.interval_le (sound : Sound limit window clock slot admitted) (start : T) :
    admitted.countP (fun a => start ≤ a.now ∧ a.now < start + window) ≤ 2 * limit := by
  by_cases htwo : ∃ a ∈ admitted, ∃ b ∈ admitted, a.untilTime < b.untilTime ∧
      (start ≤ a.now ∧ a.now < start + window) ∧ start ≤ b.now ∧ b.now < start + window
  · obtain ⟨a, ha, b, hb, hless, hfirst, hsecond⟩ := htwo
    have hcover : ∀ c ∈ admitted, decide (start ≤ c.now ∧ c.now < start + window) = true →
        (decide (c.untilTime = a.untilTime) || decide (c.untilTime = b.untilTime)) = true := by
      intro c hc hwithin
      rw [decide_eq_true_eq] at hwithin
      rw [Bool.or_eq_true, decide_eq_true_eq, decide_eq_true_eq]
      -- a third window would lie before, between or after the two
      rcases lt_trichotomy c.untilTime a.untilTime with hc' | hc' | hc'
      · exact absurd hless (sound.two_windows start hc ha hb hwithin.1 hsecond.2 hc')
      · exact Or.inl hc'
      · rcases lt_trichotomy c.untilTime b.untilTime with hc'' | hc'' | hc''
        · exact absurd hc'' (sound.two_windows start ha hc hb hfirst.1 hsecond.2 hc')
        · exact Or.inr hc''
        · exact absurd hc'' (sound.two_windows start ha hb hc hfirst.1 hwithin.2 hless)
    have hsum := (List.countP_mono_left hcover).trans (countP_or_le _ _ admitted)
    have hfilledFirst := sound.filled a.untilTime
    have hfilledSecond := sound.filled b.untilTime
    omega
  · by_cases hone : ∃ a ∈ admitted, start ≤ a.now ∧ a.now < start + window
    · obtain ⟨a, ha, hfirst⟩ := hone
      have hcover : ∀ c ∈ admitted, decide (start ≤ c.now ∧ c.now < start + window) = true →
          decide (c.untilTime = a.untilTime) = true := by
        intro c hc hwithin
        rw [decide_eq_true_eq] at hwithin ⊢
        rcases lt_trichotomy c.untilTime a.untilTime with hless | hsame | hless
        · exact absurd ⟨c, hc, a, ha, hless, hwithin, hfirst⟩ htwo
        · exact hsame
        · exact absurd ⟨a, ha, c, hc, hless, hfirst, hwithin⟩ htwo
      have hsum := List.countP_mono_left hcover
      have hfilled := sound.filled a.untilTime
      omega
    · have hzero : admitted.countP (fun a => start ≤ a.now ∧ a.now < start + window) = 0 := by
        rw [List.countP_eq_zero]
        intro a ha hwithin
        exact hone ⟨a, ha, by simpa using hwithin⟩
      omega

end Intervals

end OpsUp.Limits
