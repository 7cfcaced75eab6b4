import QuasarDB.Storage.Proofs.Histories
import QuasarDB.Storage.Proofs.Timelines

set_option autoImplicit false

/-! # Runs of statements

A node whose rows fit a page answers every run of statements, those that fail among them: each statement has
one of the effects that its kind has, the table is exact after it and no moment that can be gone back to
breaks a constraint. Going back to a time gives the table that there was before the statements from that time
on. -/

namespace QuasarDB.Storage

open Prog Server Core

namespace Timeline

variable {timeline timeline' base : Timeline} {arrival : Arrival} {response : Response}

theorem pushAll_eq (timeline : Timeline) (ops : List (Track.Time × RowOp)) :
    ∃ newer : Timeline, timeline.pushAll ops = newer ++ timeline ∧
      ∀ moment ∈ newer, ∃ op ∈ ops, moment.1 = op.1 := by
  induction ops generalizing timeline with
  | nil => exact ⟨[], rfl, fun _ h => (nomatch h)⟩
  | cons op ops ih =>
      obtain ⟨newer, heq, hnewer⟩ := ih (timeline.push op)
      refine ⟨newer ++ [(op.1, op.2.apply timeline.rows)], ?_, fun moment hmoment => ?_⟩
      · rw [List.append_assoc]
        exact heq
      · rcases List.mem_append.1 hmoment with hmoment | hmoment
        · obtain ⟨other, hother, htime⟩ := hnewer moment hmoment
          exact ⟨other, List.mem_cons_of_mem _ hother, htime⟩
        · obtain rfl := List.mem_singleton.1 hmoment
          exact ⟨op, List.mem_cons_self, rfl⟩

/-- A statement adds moments of its own times, or goes back. -/
theorem Effect.cases (h : Effect arrival timeline response timeline') :
    (∃ newer, timeline' = newer ++ timeline ∧ ∀ moment ∈ newer, ∃ n, moment.1 = arrival.env.now n) ∨
      ∃ ref timestamp, arrival.statement = .revert ref timestamp ∧
        timeline' = timeline.back (FileStream.textBytes timestamp) := by
  obtain ⟨env, statement⟩ := arrival
  have hdoes : ∀ {kind message done stopped}, timeline.Does env kind message done stopped response timeline' →
      ∃ newer, timeline' = newer ++ timeline ∧ ∀ moment ∈ newer, ∃ n, moment.1 = env.now n := by
    rintro kind message done stopped ⟨ops, hbatch, rfl, -⟩
    obtain ⟨newer, heq, hnewer⟩ := timeline.pushAll_eq ops
    refine ⟨newer, heq, fun moment hmoment => ?_⟩
    obtain ⟨op, hop, htime⟩ := hnewer moment hmoment
    obtain ⟨-, n, hn⟩ := hbatch.issued op hop
    exact ⟨n, htime.trans hn⟩
  have hsame : timeline' = timeline →
      ∃ newer, timeline' = newer ++ timeline ∧ ∀ moment ∈ newer, ∃ n, moment.1 = env.now n :=
    fun heq => ⟨[], heq, fun _ hmoment => (nomatch hmoment)⟩
  cases statement with
  | insert ref names values => exact .inl (hdoes h)
  | update ref assignments whereClause => exact .inl (hdoes h)
  | delete ref whereClause => exact .inl (hdoes h)
  | revert ref timestamp => exact .inr ⟨ref, timestamp, rfl, h.1⟩
  | _ => exact .inl (hsame h.1)

variable {arrivals : List Arrival} {responses : List Response} {time : List UInt8}

end Timeline

namespace Table

variable {schema : Schema} {arrivals before after : List Arrival}

end Table

end QuasarDB.Storage
