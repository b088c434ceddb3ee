import Mathlib.Data.List.Basic

/-!
# Loops that read and write

A loop reads data, writes it as one message when there is any, and ends with the first error
of a read, which may come together with data, or with the first error of a write.  What meets
it is a list of rounds; a list that is used up leaves the loop in its next read.
-/

namespace OpsUp.Interaction

variable {ε ω α β ρ : Type}

/-- A read and, if one is made, the write after it. -/
structure Round (ε ω α : Type) where
  data : List α
  /-- the error of the read -/
  ended : Option ε
  /-- the error of the write -/
  failed : Option ω

/-- The writes of a loop with their errors, and what the loop has returned. -/
structure LoopRun (ω β ρ : Type) where
  writes : List (β × Option ω)
  returned : Option ρ

/-- What has been sent: the messages of the writes that succeeded. -/
def LoopRun.delivered (run : LoopRun ω β ρ) : List β :=
  run.writes.filterMap fun write => if write.2.isNone then some write.1 else none

def copyLoop (message : List α → β) (stopped : ε → ρ) (broken : ω → ρ) :
    List (Round ε ω α) → LoopRun ω β ρ
  | [] => ⟨[], none⟩
  | round :: rest =>
      let after : LoopRun ω β ρ :=
        match round.ended with
        | some err => ⟨[], some (stopped err)⟩
        | none => copyLoop message stopped broken rest
      if 0 < round.data.length then
        match round.failed with
        | some err => ⟨[(message round.data, some err)], some (broken err)⟩
        | none => { after with writes := (message round.data, none) :: after.writes }
      else after

/-- The rounds up to the first that has an error of the read. -/
def upToEnd : List (Round ε ω α) → List (Round ε ω α)
  | [] => []
  | round :: rest =>
      match round.ended with
      | some _ => [round]
      | none => round :: upToEnd rest

/-- The first error of a read. -/
def ending (rounds : List (Round ε ω α)) : Option ε := rounds.findSome? Round.ended

/-- The data that is written: one message for each read that has any. -/
def payloads (rounds : List (Round ε ω α)) : List (List α) :=
  (rounds.map Round.data).filter fun data => 0 < data.length

variable {message : List α → β} {stopped : ε → ρ} {broken : ω → ρ} {round : Round ε ω α}
  {rounds rest : List (Round ε ω α)}

theorem payloads_cons_of_data (data : 0 < round.data.length) :
    payloads (round :: rest) = round.data :: payloads rest :=
  List.filter_cons_of_pos (decide_eq_true data)

theorem payloads_cons_of_empty (empty : ¬ 0 < round.data.length) :
    payloads (round :: rest) = payloads rest :=
  List.filter_cons_of_neg fun hdata => empty (of_decide_eq_true hdata)

/-- Empty reads carry nothing. -/
theorem flatten_payloads (rounds : List (Round ε ω α)) :
    (payloads rounds).flatten = (rounds.map Round.data).flatten := by
  induction rounds with
  | nil => rfl
  | cons round rest ih =>
      rw [List.map_cons, List.flatten_cons, ← ih]
      by_cases hdata : 0 < round.data.length
      · rw [payloads_cons_of_data hdata, List.flatten_cons]
      · rw [payloads_cons_of_empty hdata, List.length_eq_zero_iff.mp (Nat.eq_zero_of_not_pos hdata),
          List.nil_append]

theorem length_of_mem_payloads {data : List α} (mem : data ∈ payloads rounds) : 0 < data.length :=
  of_decide_eq_true (List.mem_filter.mp mem).2

/-! ## One round -/

theorem upToEnd_cons_some {err : ε} (ended : round.ended = some err) :
    upToEnd (round :: rest) = [round] := by
  rw [upToEnd, ended]

theorem upToEnd_cons_none (goes : round.ended = none) :
    upToEnd (round :: rest) = round :: upToEnd rest := by
  rw [upToEnd, goes]

/-- The first round always counts. -/
theorem upToEnd_cons (round : Round ε ω α) (rest : List (Round ε ω α)) :
    upToEnd (round :: rest) = round :: (upToEnd (round :: rest)).tail := by
  cases hended : round.ended with
  | some err => rw [upToEnd_cons_some hended, List.tail_cons]
  | none => rw [upToEnd_cons_none hended, List.tail_cons]

theorem ending_cons_some {err : ε} (ended : round.ended = some err) :
    ending (round :: rest) = some err := by
  rw [ending, List.findSome?_cons, ended]

theorem ending_cons_none (goes : round.ended = none) : ending (round :: rest) = ending rest := by
  rw [ending, List.findSome?_cons, goes]
  rfl

/-- What the loop does after the write of its first round. -/
def afterWrite (message : List α → β) (stopped : ε → ρ) (broken : ω → ρ) (round : Round ε ω α)
    (rest : List (Round ε ω α)) : LoopRun ω β ρ :=
  match round.ended with
  | some err => ⟨[], some (stopped err)⟩
  | none => copyLoop message stopped broken rest

theorem copyLoop_cons_of_empty (empty : ¬ 0 < round.data.length) :
    copyLoop message stopped broken (round :: rest) =
      afterWrite message stopped broken round rest := if_neg empty

theorem copyLoop_cons_of_failed (data : 0 < round.data.length) {err : ω}
    (failed : round.failed = some err) :
    copyLoop message stopped broken (round :: rest) =
      ⟨[(message round.data, some err)], some (broken err)⟩ := by
  rw [copyLoop, if_pos data, failed]

theorem copyLoop_cons_of_written (data : 0 < round.data.length) (succeeds : round.failed = none) :
    copyLoop message stopped broken (round :: rest) =
      ⟨(message round.data, none) :: (afterWrite message stopped broken round rest).writes,
        (afterWrite message stopped broken round rest).returned⟩ := by
  rw [copyLoop, if_pos data, succeeds]
  rfl

/-! ## Whole runs -/

/-- While the writes succeed, what is read up to the end is written, and no more. -/
theorem copyLoop_of_writes (succeed : ∀ round ∈ upToEnd rounds, 0 < round.data.length →
    round.failed = none) :
    copyLoop message stopped broken rounds =
      ⟨(payloads (upToEnd rounds)).map fun data => (message data, none),
        (ending rounds).map stopped⟩ := by
  induction rounds with
  | nil => rfl
  | cons round rest ih =>
      have hafter : afterWrite message stopped broken round rest =
          ⟨(payloads (upToEnd (round :: rest)).tail).map fun data => (message data, none),
            (ending (round :: rest)).map stopped⟩ := by
        unfold afterWrite
        cases hended : round.ended with
        | some err =>
            rw [upToEnd_cons_some hended, ending_cons_some hended]
            rfl
        | none =>
            rw [upToEnd_cons_none hended, ending_cons_none hended]
            refine ih fun other hother => succeed other ?_
            rw [upToEnd_cons_none hended]
            exact List.mem_cons_of_mem _ hother
      by_cases hdata : 0 < round.data.length
      · have hsucceeds : round.failed = none := by
          refine succeed round ?_ hdata
          rw [upToEnd_cons]
          exact List.mem_cons_self
        rw [copyLoop_cons_of_written hdata hsucceeds, hafter, upToEnd_cons,
          payloads_cons_of_data hdata]
        rfl
      · rw [copyLoop_cons_of_empty hdata, hafter, upToEnd_cons, payloads_cons_of_empty hdata]
        rfl

/-- Whatever the writes do, the messages are the first of those. -/
theorem copyLoop_prefix (rounds : List (Round ε ω α)) :
    (copyLoop message stopped broken rounds).writes.map Prod.fst <+:
      (payloads (upToEnd rounds)).map message := by
  induction rounds with
  | nil => exact List.nil_prefix
  | cons round rest ih =>
      have hafter : (afterWrite message stopped broken round rest).writes.map Prod.fst <+:
          (payloads (upToEnd (round :: rest)).tail).map message := by
        unfold afterWrite
        cases hended : round.ended with
        | some err => exact List.nil_prefix
        | none =>
            rw [upToEnd_cons_none hended]
            exact ih
      rw [upToEnd_cons]
      by_cases hdata : 0 < round.data.length
      · rw [payloads_cons_of_data hdata, List.map_cons]
        cases hfailed : round.failed with
        | some err =>
            rw [copyLoop_cons_of_failed hdata hfailed]
            exact List.prefix_append [message round.data] _
        | none =>
            rw [copyLoop_cons_of_written hdata hfailed, List.map_cons]
            exact (List.prefix_cons_inj _).mpr hafter
      · rw [copyLoop_cons_of_empty hdata, payloads_cons_of_empty hdata]
        exact hafter

/-- A failed write is the last, and its error is what the loop returns. -/
theorem copyLoop_failed {front back : List (β × Option ω)} {sent : β} {err : ω}
    (place : (copyLoop message stopped broken rounds).writes = front ++ (sent, some err) :: back) :
    back = [] ∧ (∀ write ∈ front, write.2 = none) ∧
      (copyLoop message stopped broken rounds).returned = some (broken err) := by
  induction rounds generalizing front with
  | nil => simp [copyLoop] at place
  | cons round rest ih =>
      have hafter : ∀ {front}, (afterWrite message stopped broken round rest).writes =
          front ++ (sent, some err) :: back → back = [] ∧ (∀ write ∈ front, write.2 = none) ∧
            (afterWrite message stopped broken round rest).returned = some (broken err) := by
        intro front
        unfold afterWrite
        cases round.ended with
        | some other => simp
        | none => exact ih
      by_cases hdata : 0 < round.data.length
      · cases hfailed : round.failed with
        | some other =>
            rw [copyLoop_cons_of_failed hdata hfailed] at place ⊢
            cases front with
            | nil =>
                obtain ⟨hwrite, rfl⟩ := List.cons.inj place
                obtain ⟨-, hother⟩ := Prod.mk.inj hwrite
                rw [Option.some.inj hother]
                exact ⟨rfl, by simp, rfl⟩
            | cons write front =>
                obtain ⟨-, hrest⟩ := List.cons.inj place
                simp at hrest
        | none =>
            rw [copyLoop_cons_of_written hdata hfailed] at place ⊢
            cases front with
            | nil =>
                obtain ⟨hwrite, -⟩ := List.cons.inj place
                cases (Prod.mk.inj hwrite).2
            | cons write front =>
                obtain ⟨rfl, hrest⟩ := List.cons.inj place
                obtain ⟨hback, hfront, hreturned⟩ := hafter hrest
                refine ⟨hback, fun other hother => ?_, hreturned⟩
                rcases List.mem_cons.mp hother with rfl | hmem
                · rfl
                · exact hfront other hmem
      · rw [copyLoop_cons_of_empty hdata] at place ⊢
        exact hafter place

/-- A loop that has not returned goes on with the rounds that follow. -/
theorem copyLoop_append (running : (copyLoop message stopped broken rounds).returned = none) :
    copyLoop message stopped broken (rounds ++ rest) =
      ⟨(copyLoop message stopped broken rounds).writes ++
          (copyLoop message stopped broken rest).writes,
        (copyLoop message stopped broken rest).returned⟩ := by
  induction rounds with
  | nil => rfl
  | cons round rounds ih =>
      have hafter : (afterWrite message stopped broken round rounds).returned = none →
          afterWrite message stopped broken round (rounds ++ rest) =
            ⟨(afterWrite message stopped broken round rounds).writes ++
                (copyLoop message stopped broken rest).writes,
              (copyLoop message stopped broken rest).returned⟩ := by
        unfold afterWrite
        cases round.ended with
        | some err => nofun
        | none => exact ih
      rw [List.cons_append]
      by_cases hdata : 0 < round.data.length
      · cases hfailed : round.failed with
        | some err =>
            rw [copyLoop_cons_of_failed hdata hfailed] at running
            cases running
        | none =>
            rw [copyLoop_cons_of_written hdata hfailed] at running ⊢
            rw [copyLoop_cons_of_written hdata hfailed, hafter running]
            rfl
      · rw [copyLoop_cons_of_empty hdata] at running ⊢
        rw [copyLoop_cons_of_empty hdata, hafter running]

theorem delivered_append (running : (copyLoop message stopped broken rounds).returned = none) :
    (copyLoop message stopped broken (rounds ++ rest)).delivered =
      (copyLoop message stopped broken rounds).delivered ++
        (copyLoop message stopped broken rest).delivered := by
  rw [copyLoop_append running, LoopRun.delivered, List.filterMap_append]
  rfl

end OpsUp.Interaction
