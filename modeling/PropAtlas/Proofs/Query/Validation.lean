import PropAtlas.Proofs.Query.Arguments

/-! Checking a query. A query is refused if and only if a rule is broken, and the fault names the place of
the first broken one. A query that is accepted is read as its one normal form, and asking that again
changes nothing. -/

namespace PropAtlas.Query

/-! ### Asking again -/

theorem describes_toJson {c : Criterion} (h : c.name ≠ []) : Describes c.toJson c := by
  obtain ⟨name, value, operator, present⟩ := c
  refine ⟨⟨_, rfl⟩, ⟨Json.field?_record _ _, h⟩, .inl (Json.field?_record _ _), .inl ?_, .inl ?_⟩
  · rw [Criterion.toJson, Json.field?_record]
    cases value <;> cases present <;> rfl
  · rw [Criterion.toJson, Json.field?_record]
    cases value <;> cases present <;> rfl

theorem exists_describes {items : List Json} {cs : List Criterion} {c : Criterion}
    (h : List.Forall₂ Describes items cs) (hc : c ∈ cs) : ∃ j ∈ items, Describes j c := by
  induction h with
  | nil => nomatch hc
  | cons hd _ ih =>
    rcases List.mem_cons.mp hc with rfl | hc
    · exact ⟨_, List.mem_cons_self, hd⟩
    · obtain ⟨j, hj, hd⟩ := ih hc
      exact ⟨j, List.mem_cons_of_mem _ hj, hd⟩

/-- A criterion that is asked for is described by its own form. -/
theorem describes_of_asks {component criteria logic : Json} {q : Question} {c : Criterion}
    (h : Asks component criteria logic q) (hc : c ∈ q.criteria) : Describes c.toJson c := by
  obtain ⟨items, -, hitems⟩ := h.criteria
  obtain ⟨j, -, hd⟩ := exists_describes hitems hc
  exact describes_toJson hd.name.2

/-- A question is asked by the forms of its criteria and the name of its logic. -/
theorem Asks.again {component criteria logic : Json} {q : Question}
    (h : Asks component criteria logic q) :
    Asks component (.list (q.criteria.map Criterion.toJson)) (.string q.logic.name) q := by
  refine ⟨h.component, ⟨_, rfl, ?_⟩, ⟨_, .inr rfl, ?_⟩⟩
  · cases q.logic <;> decide
  · apply List.forall₂_map_left_iff.mpr
    apply List.forall₂_same.mpr
    intro c hc
    exact describes_of_asks h hc

section Validate

variable {component criteria logic : Json} {q : Question}

/-- A query that is accepted is read as the question that it asks. -/
theorem validate_eq_ok_iff :
    validate component criteria logic = .ok q ↔ Asks component criteria logic q := by
  obtain ⟨_, hchecks⟩ := checks_query component criteria logic
  rw [← hchecks.ok_iff, validate]
  cases check component criteria logic with
  | ok => rw [Except.mapError, Except.ok.injEq, Except.ok.injEq]
  | error => exact ⟨nofun, nofun⟩

end Validate

theorem Fault.isWritable_iff (f : Fault) : f.isWritable = true ↔ ∀ j ∈ f.quoted?, j.Short := by
  cases f with
  | logic j | operator i j => simpa [Fault.isWritable, Fault.quoted?] using Json.isWritable_iff
  | component | notList | notObject | name | value | present => simp [Fault.isWritable, Fault.quoted?]

end PropAtlas.Query
