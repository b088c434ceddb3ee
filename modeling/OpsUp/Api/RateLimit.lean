import OpsUp.Auth.Token
import OpsUp.Limits.FixedWindow
import Mathlib.Algebra.Order.Group.Int
import Mathlib.Data.List.AList

/-!
# The rate limit of the authentication routes

`authRateLimit` keeps one window for each address in a table.  Every request, of
whatever address, first drops the windows that have ended; a new window is only
opened while the table has fewer than 4096 of them.
-/

namespace OpsUp.Api

open OpsUp.Auth OpsUp.Limits

def maxClients : Nat := 4096

def tooManyRequests : Nat := 429

def errTooManyAttempts : String := "too many authentication attempts; try again later"

/-- `map[string]bucket` -/
abbrev Clients := AList fun _ : String => Bucket Time

/-- `delete(clients, key)` for each bucket whose time has come. -/
def purge (now : Time) (clients : Clients) : Clients where
  entries := clients.entries.filter fun entry => now < entry.2.untilTime
  nodupKeys := clients.nodupKeys.sublist List.filter_sublist

def size (clients : Clients) : Nat := clients.entries.length

/-- A request: when it enters, from where, and when `time.Until` reads the clock for it. -/
structure Arrival where
  now : Time
  ip : String
  headerAt : Time
  deriving DecidableEq

inductive Admittance where
  /-- `c.Next()` -/
  | next
  /-- The `Retry-After` header is the decimal text of the seconds. -/
  | abort (status : Nat) (retryAfter : Int) (error : String)
  deriving DecidableEq

/-- `max(1, int(time.Until(until).Seconds())+1)` -/
def retryAfter (untilTime headerAt : Time) : Int :=
  max 1 ((untilTime - headerAt).tdiv 1000000000 + 1)

section Handler

variable (limit : Nat) (window : Time)

/-- What happens between `mu.Lock()` and `mu.Unlock()`. -/
def enter (clients : Clients) (now : Time) (ip : String) : Verdict Time × Clients :=
  let clients := purge now clients
  let found := clients.lookup ip
  let value := found.getD ⟨now + window, 0⟩
  let blocked := decide (limit ≤ value.count) || (found.isNone && decide (maxClients ≤ size clients))
  if blocked then (⟨true, value⟩, clients)
  else (⟨false, value⟩, clients.insert ip { value with count := value.count + 1 })

def respond (attempt : Arrival) (verdict : Verdict Time) : Admittance :=
  if verdict.blocked then
    .abort tooManyRequests (retryAfter verdict.value.untilTime attempt.headerAt) errTooManyAttempts
  else .next

def authRateLimit (clients : Clients) (attempt : Arrival) : Admittance × Clients :=
  let entered := enter limit window clients attempt.now attempt.ip
  (respond attempt entered.1, entered.2)

/-! ## Runs -/

/-- The table after some requests. -/
def clientsAfter : Clients → List Arrival → Clients
  | clients, [] => clients
  | clients, attempt :: rest =>
      clientsAfter (enter limit window clients attempt.now attempt.ip).2 rest

/-- Each request with its verdict. -/
def history : Clients → List Arrival → List (Arrival × Verdict Time)
  | _, [] => []
  | clients, attempt :: rest =>
      let entered := enter limit window clients attempt.now attempt.ip
      (attempt, entered.1) :: history entered.2 rest

end Handler

/-! ## The table -/

@[simp]
theorem lookup_purge (now : Time) (clients : Clients) (ip : String) :
    (purge now clients).lookup ip = live now (clients.lookup ip) := by
  apply Option.ext
  intro bucket
  rw [live_eq_some_iff]
  have hpurged := AList.mem_lookup_iff (a := ip) (b := bucket) (s := purge now clients)
  have hfound := AList.mem_lookup_iff (a := ip) (b := bucket) (s := clients)
  rw [Option.mem_def] at hpurged hfound
  rw [hpurged, hfound, purge, List.mem_filter, decide_eq_true_eq]

theorem size_purge_le (now : Time) (clients : Clients) : size (purge now clients) ≤ size clients :=
  List.length_filter_le _ _

theorem size_insert (clients : Clients) (ip : String) (bucket : Bucket Time) :
    size (clients.insert ip bucket) =
      if (clients.lookup ip).isSome then size clients else size clients + 1 := by
  have hkeys : ∀ table : Clients, size table = table.keys.length := fun table =>
    (List.length_map _).symm
  rw [hkeys, hkeys, AList.keys_insert, List.length_cons]
  split
  · next hsome =>
      have hmem := AList.mem_keys.mp (AList.lookup_isSome.mp hsome)
      have hpos := List.length_pos_of_mem hmem
      rw [List.length_erase_of_mem hmem]
      omega
  · next hnone =>
      have hmem := mt AList.mem_keys.mpr (mt AList.lookup_isSome.mpr hnone)
      rw [List.erase_of_not_mem hmem]

section Enter

variable {limit : Nat} {window now : Time} {clients : Clients} {ip other : String}

/-- There is room for one more window. -/
def room (now : Time) (clients : Clients) : Bool := decide (size (purge now clients) < maxClients)

/-- A request is judged by the window of its own address. -/
theorem enter_verdict :
    (enter limit window clients now ip).1 =
      judge limit window (room now clients) now (clients.lookup ip) := by
  have hroom : decide (maxClients ≤ size (purge now clients)) = !room now clients := by
    rw [room, ← decide_not, decide_eq_decide, not_lt]
  simp only [enter, judge, lookup_purge, hroom]
  split
  · next hblocked => rw [hblocked]
  · next hblocked => rw [Bool.not_eq_true _ |>.mp hblocked]

theorem enter_lookup_self :
    (enter limit window clients now ip).2.lookup ip =
      settle now (clients.lookup ip) (enter limit window clients now ip).1 := by
  unfold enter
  dsimp only
  split
  · rw [settle, if_pos rfl, lookup_purge]
  · rw [settle, if_neg Bool.false_ne_true, AList.lookup_insert]

/-- Requests of other addresses only let time pass. -/
theorem enter_lookup_other (different : other ≠ ip) :
    (enter limit window clients now ip).2.lookup other = live now (clients.lookup other) := by
  unfold enter
  dsimp only
  split
  · rw [lookup_purge]
  · rw [AList.lookup_insert_ne different, lookup_purge]

end Enter

/-! ## One address -/

/-- The entry of a request, when it is of this address. -/
def own (ip : String) (event : Arrival × Verdict Time) : Option (Entry Time) :=
  if event.1.ip = ip then some ⟨event.1.now, event.2⟩ else none

section OneAddress

variable {limit : Nat} {window clock : Time} {ip : String} {clients : Clients}
  {attempts : List Arrival}

/-- The requests of one address, with or without room when they came. -/
def ownAttempts (limit : Nat) (window : Time) (ip : String) :
    Clients → List Arrival → List (Time × Bool)
  | _, [] => []
  | clients, attempt :: rest =>
      let tail := ownAttempts limit window ip
        (enter limit window clients attempt.now attempt.ip).2 rest
      if attempt.ip = ip then (attempt.now, room attempt.now clients) :: tail else tail

theorem ownAttempts_times (limit : Nat) (window : Time) (ip : String) (clients : Clients)
    (attempts : List Arrival) :
    (ownAttempts limit window ip clients attempts).map Prod.fst =
      (attempts.filter fun attempt => attempt.ip = ip).map Arrival.now := by
  induction attempts generalizing clients with
  | nil => rfl
  | cons attempt rest ih =>
      rw [ownAttempts]
      by_cases hip : attempt.ip = ip
      · rw [if_pos hip, List.filter_cons_of_pos (by simpa using hip), List.map_cons, List.map_cons,
          ih]
      · rw [if_neg hip, List.filter_cons_of_neg (by simpa using hip), ih]

/-- The windows of an address in the table and in a limiter of its own last alike. -/
def Alike (clock : Time) (found slot : Option (Bucket Time)) : Prop :=
  ∀ later, clock ≤ later → live later found = live later slot

theorem judge_alike (limit : Nat) (window : Time) (room : Bool) {found slot : Option (Bucket Time)}
    {now : Time} (same : live now found = live now slot) :
    judge limit window room now found = judge limit window room now slot ∧
      settle now found (judge limit window room now found) =
        settle now slot (judge limit window room now slot) := by
  have hjudge : judge limit window room now found = judge limit window room now slot := by
    rw [judge, judge, same]
  refine ⟨hjudge, ?_⟩
  rw [hjudge, settle, settle, same]

section Slot

variable {now : Time} {other : String} {slot : Option (Bucket Time)}

/-- A request of the address changes both alike. -/
theorem Alike.enter_self (alike : Alike clock (clients.lookup ip) slot) (later : clock ≤ now) :
    Alike now ((enter limit window clients now ip).2.lookup ip)
      (settle now slot (judge limit window (room now clients) now slot)) := by
  obtain ⟨-, hsettle⟩ := judge_alike limit window (room now clients) (alike now later)
  intro time _
  rw [enter_lookup_self, enter_verdict, hsettle]

/-- A request of another address changes neither. -/
theorem Alike.enter_other (alike : Alike clock (clients.lookup ip) slot) (later : clock ≤ now)
    (different : other ≠ ip) :
    Alike now ((enter limit window clients now other).2.lookup ip) slot := by
  intro time htime
  rw [enter_lookup_other different.symm, live_live htime]
  exact alike time (le_trans later htime)

end Slot

/-- Among requests of any addresses, each address is served as if it had a limiter of its
own, but for the room it finds. -/
theorem history_own {slot : Option (Bucket Time)}
    (ordered : (attempts.map Arrival.now).Pairwise (· ≤ ·))
    (later : ∀ attempt ∈ attempts, clock ≤ attempt.now)
    (alike : Alike clock (clients.lookup ip) slot) :
    (history limit window clients attempts).filterMap (own ip) =
      serve limit window slot (ownAttempts limit window ip clients attempts) := by
  induction attempts generalizing clients slot clock with
  | nil => rfl
  | cons attempt rest ih =>
      rw [List.map_cons, List.pairwise_cons] at ordered
      have hclock := later attempt (by simp)
      have hlater : ∀ other ∈ rest, attempt.now ≤ other.now := fun other hother =>
        ordered.1 other.now (List.mem_map_of_mem hother)
      rw [history, ownAttempts, List.filterMap_cons]
      by_cases hip : attempt.ip = ip
      · subst hip
        obtain ⟨hjudge, -⟩ := judge_alike limit window (room attempt.now clients)
          (alike attempt.now hclock)
        rw [if_pos rfl, serve, own, if_pos rfl]
        dsimp only
        rw [enter_verdict, hjudge, ih ordered.2 hlater (alike.enter_self hclock)]
      · rw [if_neg hip, own, if_neg hip]
        exact ih ordered.2 hlater (alike.enter_other hclock hip)

end OneAddress

/-! ## Bounds -/

/-- The buckets are filled at most to the limit, and there are not too many of them. -/
structure Bounded (limit : Nat) (clients : Clients) : Prop where
  counts : ∀ ip bucket, clients.lookup ip = some bucket → bucket.count ≤ limit
  size : size clients ≤ maxClients

theorem bounded_empty (limit : Nat) : Bounded limit ∅ where
  counts := nofun
  size := Nat.zero_le _

theorem Bounded.purge {limit : Nat} {clients : Clients} (bounded : Bounded limit clients)
    (now : Time) : Bounded limit (purge now clients) where
  counts := by
    intro ip bucket hlookup
    rw [lookup_purge, live_eq_some_iff] at hlookup
    exact bounded.counts ip bucket hlookup.1
  size := le_trans (size_purge_le now clients) bounded.size

theorem Bounded.enter {limit : Nat} {clients : Clients} (bounded : Bounded limit clients)
    (window now : Time) (ip : String) : Bounded limit (enter limit window clients now ip).2 := by
  have hpurged := bounded.purge now
  unfold Api.enter
  dsimp only
  split
  · exact hpurged
  · next hblocked =>
      simp only [Bool.or_eq_true, Bool.and_eq_true, decide_eq_true_eq, not_or, not_and, not_le]
        at hblocked
      obtain ⟨hleft, hroom⟩ := hblocked
      constructor
      · intro other bucket hlookup
        by_cases hother : other = ip
        · subst hother
          rw [AList.lookup_insert] at hlookup
          cases hlookup
          exact hleft
        · rw [AList.lookup_insert_ne hother] at hlookup
          exact hpurged.counts other bucket hlookup
      · rw [size_insert]
        split
        · exact hpurged.size
        · next hnone => exact hroom (by simpa using hnone)

theorem Bounded.after {limit : Nat} {clients : Clients} (bounded : Bounded limit clients)
    (window : Time) (attempts : List Arrival) :
    Bounded limit (clientsAfter limit window clients attempts) := by
  induction attempts generalizing clients with
  | nil => exact bounded
  | cons attempt rest ih => exact ih (bounded.enter window attempt.now attempt.ip)

/-- The request was admitted by the bucket of this address that ends at this time. -/
def admittedBy (ip : String) (untilTime : Time) (event : Arrival × Verdict Time) : Bool :=
  decide (event.1.ip = ip) && !event.2.blocked && decide (event.2.value.untilTime = untilTime)

/-- The request of this address was admitted in the half-open interval. -/
def admittedWithin (ip : String) (start stop : Time) (event : Arrival × Verdict Time) : Bool :=
  decide (event.1.ip = ip) && !event.2.blocked &&
    decide (start ≤ event.1.now ∧ event.1.now < stop)

/-- The admissions of one address. -/
def admissions (ip : String) (events : List (Arrival × Verdict Time)) : List (Admission Time) :=
  (events.filterMap (own ip)).filterMap Entry.admission

theorem countP_admissions (ip : String) (counts : Time → Time → Prop)
    [∀ now untilTime, Decidable (counts now untilTime)] (events : List (Arrival × Verdict Time)) :
    (admissions ip events).countP (fun a => counts a.now a.untilTime) =
      events.countP fun event => decide (event.1.ip = ip) && !event.2.blocked &&
        decide (counts event.1.now event.2.value.untilTime) := by
  unfold admissions
  induction events with
  | nil => rfl
  | cons event rest ih =>
      rw [List.filterMap_cons, List.countP_cons, ← ih, own]
      by_cases hip : event.1.ip = ip
      · rw [if_pos hip]
        dsimp only
        rw [List.filterMap_cons, Entry.admission]
        cases hblocked : event.2.blocked with
        | true => simp
        | false => simp [hip, List.countP_cons]
      · simp [hip]

theorem first_le {first : Arrival} {rest : List Arrival}
    (ordered : ((first :: rest).map Arrival.now).Pairwise (· ≤ ·)) :
    ∀ attempt ∈ first :: rest, first.now ≤ attempt.now := by
  rw [List.map_cons, List.pairwise_cons] at ordered
  intro attempt hattempt
  rcases List.mem_cons.mp hattempt with rfl | hrest
  · exact le_refl _
  · exact ordered.1 _ (List.mem_map_of_mem hrest)

/-- The admissions of an address are those of a limiter of its own. -/
theorem admissions_sound (limit : Nat) {window : Time} (positive : 0 < window) (ip : String)
    {attempts : List Arrival} (ordered : (attempts.map Arrival.now).Pairwise (· ≤ ·)) :
    ∃ clock slot, Sound limit window clock slot
      (admissions ip (history limit window ∅ attempts)) := by
  cases attempts with
  | nil => exact ⟨0, none, .initial limit window 0⟩
  | cons first rest =>
      have hlater := first_le ordered
      have halike : Alike first.now ((∅ : Clients).lookup ip) none := fun _ _ => rfl
      rw [admissions, history_own ordered hlater halike]
      have hinitial := Sound.initial limit window first.now
      apply hinitial.serve positive
      · rw [ownAttempts_times]
        exact ordered.sublist (List.filter_sublist.map _)
      · intro attempt hattempt
        have htime := List.mem_map_of_mem (f := Prod.fst) hattempt
        rw [ownAttempts_times] at htime
        obtain ⟨original, horiginal, hnow⟩ := List.mem_map.mp htime
        rw [← hnow]
        exact hlater original (List.mem_of_mem_filter horiginal)

/--
After any requests in the order of their times: no bucket is filled beyond the limit,
there are at most 4096 buckets, each bucket has admitted at most as many requests as
the limit, and an interval as long as the window at most twice as many of one address.
-/
theorem login_rate_limit {limit : Nat} {window : Time} (positive : 0 < window)
    {attempts : List Arrival} (ordered : (attempts.map Arrival.now).Pairwise (· ≤ ·)) :
    (∀ ip bucket, (clientsAfter limit window ∅ attempts).lookup ip = some bucket →
      bucket.count ≤ limit) ∧
    size (clientsAfter limit window ∅ attempts) ≤ maxClients ∧
    (∀ ip untilTime,
      (history limit window ∅ attempts).countP (admittedBy ip untilTime) ≤ limit) ∧
    ∀ ip start, (history limit window ∅ attempts).countP
      (admittedWithin ip start (start + window)) ≤ 2 * limit := by
  have hbounded := (bounded_empty limit).after window attempts
  refine ⟨hbounded.counts, hbounded.size, ?_, ?_⟩
  · intro ip untilTime
    obtain ⟨clock, slot, hsound⟩ := admissions_sound limit positive ip ordered
    have hfilled := hsound.filled untilTime
    rwa [countP_admissions ip fun _ other => other = untilTime] at hfilled
  · intro ip start
    obtain ⟨clock, slot, hsound⟩ := admissions_sound limit positive ip ordered
    have hinterval := hsound.interval_le start
    rwa [countP_admissions ip fun now _ => start ≤ now ∧ now < start + window] at hinterval

/-- `time.Minute` -/
def minute : Time := 60000000000

/-- Three requests of one address, one of another. -/
def knocking : List Arrival :=
  [⟨0, "198.51.100.7", 0⟩, ⟨5000000000, "198.51.100.7", 5000000000⟩,
    ⟨6000000000, "198.51.100.8", 6000000000⟩, ⟨61000000000, "198.51.100.7", 61000000000⟩]

theorem login_rate_limit_knocking :
    (history 1 minute ∅ knocking).countP
      (admittedWithin "198.51.100.7" 5000000000 (5000000000 + minute)) ≤ 2 * 1 :=
  have hpositive : 0 < minute := by decide
  have hordered : (knocking.map Arrival.now).Pairwise (· ≤ ·) := by decide
  (login_rate_limit hpositive hordered).2.2.2 "198.51.100.7" 5000000000

/-! ## Other addresses -/

/-- There is room whenever the address starts a new bucket. -/
def RoomFor (limit : Nat) (window : Time) (ip : String) : Clients → List Arrival → Prop
  | _, [] => True
  | clients, attempt :: rest =>
      (attempt.ip = ip → live attempt.now (clients.lookup ip) = none → 0 < limit →
        size (purge attempt.now clients) < maxClients) ∧
      RoomFor limit window ip (enter limit window clients attempt.now attempt.ip).2 rest

instance decidableRoomFor (limit : Nat) (window : Time) (ip : String) :
    ∀ (clients : Clients) (attempts : List Arrival),
      Decidable (RoomFor limit window ip clients attempts)
  | _, [] => isTrue trivial
  | clients, attempt :: rest =>
      have := decidableRoomFor limit window ip
        (enter limit window clients attempt.now attempt.ip).2 rest
      inferInstanceAs (Decidable (_ ∧ _))

/-- What one address is answered. -/
def outcomesOf (limit : Nat) (window : Time) (ip : String) (attempts : List Arrival) :
    List Admittance :=
  ((history limit window ∅ attempts).filter fun event => event.1.ip = ip).map fun event =>
    respond event.1 event.2

section Independence

variable {limit : Nat} {window clock : Time} {ip : String} {clients : Clients}
  {attempts : List Arrival}

theorem roomy_of_roomFor {slot : Option (Bucket Time)}
    (ordered : (attempts.map Arrival.now).Pairwise (· ≤ ·))
    (later : ∀ attempt ∈ attempts, clock ≤ attempt.now)
    (alike : Alike clock (clients.lookup ip) slot)
    (roomFor : RoomFor limit window ip clients attempts) :
    Roomy limit window slot (ownAttempts limit window ip clients attempts) := by
  induction attempts generalizing clients slot clock with
  | nil => exact trivial
  | cons attempt rest ih =>
      rw [List.map_cons, List.pairwise_cons] at ordered
      obtain ⟨hroom, hrest⟩ := roomFor
      have hclock := later attempt (by simp)
      have hlater : ∀ other ∈ rest, attempt.now ≤ other.now := fun other hother =>
        ordered.1 other.now (List.mem_map_of_mem hother)
      rw [ownAttempts]
      by_cases hip : attempt.ip = ip
      · subst hip
        have hlive := alike attempt.now hclock
        rw [if_pos rfl]
        constructor
        · intro hnone hpositive
          exact decide_eq_true (hroom rfl (hlive.trans hnone) hpositive)
        · exact ih ordered.2 hlater (alike.enter_self hclock) hrest
      · rw [if_neg hip]
        exact ih ordered.2 hlater (alike.enter_other hclock hip) hrest

/-- With room for its buckets, an address has the verdicts of a limiter of its own. -/
theorem history_own_of_roomFor (ordered : (attempts.map Arrival.now).Pairwise (· ≤ ·))
    (roomFor : RoomFor limit window ip ∅ attempts) :
    (history limit window ∅ attempts).filterMap (own ip) =
      serve limit window none
        ((attempts.filter fun attempt => attempt.ip = ip).map fun attempt => (attempt.now, true)) := by
  cases attempts with
  | nil => rfl
  | cons first rest =>
      have hlater := first_le ordered
      have halike : Alike first.now ((∅ : Clients).lookup ip) none := fun _ _ => rfl
      have hroomy := roomy_of_roomFor ordered hlater halike roomFor
      rw [history_own ordered hlater halike, serve_of_roomy hroomy]
      congr 1
      have htimes := congrArg (List.map fun now : Time => (now, true))
        (ownAttempts_times limit window ip ∅ (first :: rest))
      simpa [List.map_map, Function.comp_def] using htimes

/-- The answers to an address are determined by its requests and their verdicts. -/
theorem outcomes_eq_zipWith (events : List (Arrival × Verdict Time)) :
    ((events.filter fun event => event.1.ip = ip).map fun event => respond event.1 event.2) =
      List.zipWith respond ((events.map Prod.fst).filter fun attempt => attempt.ip = ip)
        ((events.filterMap (own ip)).map Entry.verdict) := by
  induction events with
  | nil => rfl
  | cons event rest ih =>
      rw [List.filterMap_cons, own]
      by_cases hip : event.1.ip = ip
      · simp [hip, ih]
      · simp [hip, ih]

theorem history_attempts : (history limit window clients attempts).map Prod.fst = attempts := by
  induction attempts generalizing clients with
  | nil => rfl
  | cons attempt rest ih => rw [history, List.map_cons, ih]

/-- Requests of other addresses make no difference. -/
theorem outcomes_independent {first second : List Arrival}
    (firstOrdered : (first.map Arrival.now).Pairwise (· ≤ ·))
    (secondOrdered : (second.map Arrival.now).Pairwise (· ≤ ·))
    (firstRoom : RoomFor limit window ip ∅ first) (secondRoom : RoomFor limit window ip ∅ second)
    (same : first.filter (fun attempt => attempt.ip = ip) =
      second.filter fun attempt => attempt.ip = ip) :
    outcomesOf limit window ip first = outcomesOf limit window ip second := by
  unfold outcomesOf
  rw [outcomes_eq_zipWith, outcomes_eq_zipWith, history_attempts, history_attempts, same,
    history_own_of_roomFor firstOrdered firstRoom,
    history_own_of_roomFor secondOrdered secondRoom, same]

end Independence

/-! ## Trying again -/

section Retrying

variable {limit : Nat} {window : Time} {ip : String} {clients : Clients} {bucket : Bucket Time}

/-- After the announced seconds the window has ended, and one second less is not too long. -/
theorem retryAfter_bounds (untilTime headerAt : Int) :
    untilTime ≤ headerAt + retryAfter untilTime headerAt * 1000000000 ∧
      ((retryAfter untilTime headerAt - 1) * 1000000000 ≤ untilTime - headerAt ∨
        retryAfter untilTime headerAt = 1) := by
  unfold retryAfter
  rcases Int.le_total 0 (untilTime - headerAt) with hleft | hover
  · rw [Int.tdiv_eq_ediv_of_nonneg hleft]
    omega
  · have hseconds : (untilTime - headerAt).tdiv 1000000000 ≤ 0 := by
      have hnonneg := Int.tdiv_nonneg (a := -(untilTime - headerAt)) (b := 1000000000) (by omega)
        (by omega)
      rw [Int.neg_tdiv] at hnonneg
      omega
    omega

/-- Requests that are blocked do not prolong a window. -/
theorem lookup_after_blocked {attempts : List Arrival}
    (blocked : ∀ event ∈ history limit window clients attempts, event.1.ip = ip →
      event.2.blocked = true)
    (found : (clientsAfter limit window clients attempts).lookup ip = some bucket) :
    clients.lookup ip = some bucket := by
  induction attempts generalizing clients with
  | nil => exact found
  | cons attempt rest ih =>
      have hrest := ih (fun event hevent => blocked event (List.mem_cons_of_mem _ hevent)) found
      by_cases hip : attempt.ip = ip
      · subst hip
        have hblocked := blocked _ List.mem_cons_self rfl
        rw [enter_lookup_self, settle, if_pos hblocked, live_eq_some_iff] at hrest
        exact hrest.1
      · rw [enter_lookup_other (Ne.symm hip), live_eq_some_iff] at hrest
        exact hrest.1

/-- A request that finds a full bucket is told when the bucket ends. -/
theorem respond_exhausted {attempt : Arrival}
    (found : live attempt.now (clients.lookup attempt.ip) = some bucket)
    (exhausted : limit ≤ bucket.count) :
    (authRateLimit limit window clients attempt).1 =
      .abort tooManyRequests (retryAfter bucket.untilTime attempt.headerAt)
        errTooManyAttempts := by
  unfold authRateLimit
  dsimp only
  rw [enter_verdict, judge, found, respond]
  simp [exhausted]

/-- A request that finds no bucket, but room for one, goes on. -/
theorem respond_next {attempt : Arrival} (positive : 0 < limit)
    (ended : live attempt.now (clients.lookup attempt.ip) = none)
    (free : size (purge attempt.now clients) < maxClients) :
    (authRateLimit limit window clients attempt).1 = .next := by
  unfold authRateLimit
  dsimp only
  rw [enter_verdict, judge, ended, respond, room, decide_eq_true free]
  simp [positive.ne']

/-- A request of a blocked address goes on once the announced time is over. -/
theorem retry_admitted (positive : 0 < limit) {blocked retry : Arrival} {middle : List Arrival}
    {seconds : Int} (found : live blocked.now (clients.lookup blocked.ip) = some bucket)
    (exhausted : limit ≤ bucket.count)
    (told : (authRateLimit limit window clients blocked).1 =
      .abort tooManyRequests seconds errTooManyAttempts)
    (same : retry.ip = blocked.ip) (waited : blocked.headerAt + seconds * 1000000000 ≤ retry.now)
    (none : ∀ event ∈ history limit window (authRateLimit limit window clients blocked).2 middle,
      event.1.ip = blocked.ip → event.2.blocked = true)
    (free : size (purge retry.now (clientsAfter limit window clients (blocked :: middle))) <
      maxClients) :
    (authRateLimit limit window (clientsAfter limit window clients (blocked :: middle)) retry).1 =
        .next ∧
      ((seconds - 1) * 1000000000 ≤ bucket.untilTime - blocked.headerAt ∨ seconds = 1) := by
  rw [respond_exhausted found exhausted] at told
  obtain rfl : retryAfter bucket.untilTime blocked.headerAt = seconds := by
    injection told
  obtain ⟨hended, hlast⟩ := retryAfter_bounds bucket.untilTime blocked.headerAt
  refine ⟨?_, hlast⟩
  apply respond_next positive _ free
  rw [live_eq_none_iff, same]
  intro other hother
  have hbefore := lookup_after_blocked none hother
  have hblocked : (enter limit window clients blocked.now blocked.ip).1.blocked = true := by
    rw [enter_verdict, judge, found]
    simp [exhausted]
  change (enter limit window clients blocked.now blocked.ip).2.lookup blocked.ip = some other
    at hbefore
  rw [enter_lookup_self, settle, if_pos hblocked, found] at hbefore
  cases hbefore
  exact le_trans hended waited

end Retrying

/--
An address is answered independently of all others, as long as there is room for its
buckets; and once the time announced to a blocked request is over, the address is
admitted again, whatever was blocked in between.
-/
theorem rate_limit_independent (limit : Nat) (window : Time) :
    (∀ (ip : String) (first second : List Arrival),
      (first.map Arrival.now).Pairwise (· ≤ ·) → (second.map Arrival.now).Pairwise (· ≤ ·) →
      RoomFor limit window ip ∅ first → RoomFor limit window ip ∅ second →
      first.filter (fun attempt => attempt.ip = ip) =
        second.filter (fun attempt => attempt.ip = ip) →
      outcomesOf limit window ip first = outcomesOf limit window ip second) ∧
    ∀ (clients : Clients) (blocked retry : Arrival) (middle : List Arrival)
      (bucket : Bucket Time) (seconds : Int), 0 < limit →
      live blocked.now (clients.lookup blocked.ip) = some bucket → limit ≤ bucket.count →
      (authRateLimit limit window clients blocked).1 =
        .abort tooManyRequests seconds errTooManyAttempts →
      retry.ip = blocked.ip → blocked.headerAt + seconds * 1000000000 ≤ retry.now →
      (∀ event ∈ history limit window (authRateLimit limit window clients blocked).2 middle,
        event.1.ip = blocked.ip → event.2.blocked = true) →
      size (purge retry.now (clientsAfter limit window clients (blocked :: middle))) <
        maxClients →
      (authRateLimit limit window (clientsAfter limit window clients (blocked :: middle))
          retry).1 = .next ∧
        ((seconds - 1) * 1000000000 ≤ bucket.untilTime - blocked.headerAt ∨ seconds = 1) := by
  constructor
  · intro ip first second firstOrdered secondOrdered firstRoom secondRoom same
    exact outcomes_independent firstOrdered secondOrdered firstRoom secondRoom same
  · intro clients blocked retry middle bucket seconds positive found exhausted told same waited
      hnone free
    exact retry_admitted positive found exhausted told same waited hnone free

/-- The second request is told 56 seconds; after those the address is admitted. -/
theorem rate_limit_independent_knocking :
    outcomesOf 1 minute "198.51.100.7" knocking =
        outcomesOf 1 minute "198.51.100.7"
          (knocking.filter fun attempt => attempt.ip = "198.51.100.7") ∧
      (authRateLimit 1 minute (clientsAfter 1 minute ∅ (knocking.take 3))
        ⟨61000000000, "198.51.100.7", 61000000000⟩).1 = .next := by
  have hordered : (knocking.map Arrival.now).Pairwise (· ≤ ·) := by decide
  constructor
  · apply (rate_limit_independent 1 minute).1 "198.51.100.7" knocking _ hordered (by decide)
    · decide
    · decide
    · decide
  · have hadmitted := (rate_limit_independent 1 minute).2
      (clientsAfter 1 minute ∅ (knocking.take 1)) ⟨5000000000, "198.51.100.7", 5000000000⟩
      ⟨61000000000, "198.51.100.7", 61000000000⟩ [⟨6000000000, "198.51.100.8", 6000000000⟩]
      ⟨minute, 1⟩ 56 (by decide) rfl (by decide) (by decide) rfl (by decide) (by decide)
      (by decide)
    exact hadmitted.1

end OpsUp.Api
