import TickScript.Proofs.Emission.Evolution
import TickScript.Proofs.Emission.Values
import TickScript.Proofs.Text.Identifier

/-!
# Temporary names and recorded values

A temporary name ends in a number that counts the names given out so far, so no name is given out
twice, whatever the stems are. `Context.Proper` keeps account of this and of the values that were
recorded and asked for, as a context evolves.
-/

namespace TickScript

namespace Text

/-- What stands behind the last underscore of a name, in reverse. -/
def ending (name : String) : List Char := name.toList.reverse.takeWhile (· != '_')

/-- A name has only digits behind an underscore at its end. -/
def isNumbered (name : String) : Bool :=
  name.toList.contains '_' && (ending name).all Char.isDigit

theorem ending_numbered (stem : String) (number : Nat) :
    ending (stem ++ "_" ++ Nat.repr number) = (Nat.repr number).toList.reverse := by
  have hreverse : (stem ++ "_" ++ Nat.repr number).toList.reverse =
      (Nat.repr number).toList.reverse ++ '_' :: stem.toList.reverse := by simp
  rw [ending, hreverse, List.takeWhile_append_of_pos fun c hc => ?_]
  · simp
  · refine bne_iff_ne.2 fun hunderscore => underscore_not_mem_repr number ?_
    exact hunderscore ▸ List.mem_reverse.1 hc

/-- Names with a number at the end are the same only if the numbers are, whatever the stems. -/
theorem number_eq_of_eq {stem other : String} {number otherNumber : Nat}
    (h : stem ++ "_" ++ Nat.repr number = other ++ "_" ++ Nat.repr otherNumber) :
    number = otherNumber := by
  have hsame := ending_numbered stem number
  rw [h, ending_numbered, List.reverse_inj, String.toList_inj] at hsame
  exact (repr_injective hsame).symm

theorem isNumbered_numbered (stem : String) (number : Nat) :
    isNumbered (stem ++ "_" ++ Nat.repr number) = true := by
  rw [isNumbered, ending_numbered, Bool.and_eq_true, List.all_reverse, List.all_eq_true]
  refine ⟨by simp, fun c hc => ?_⟩
  rw [Nat.toList_repr] at hc
  exact Nat.isDigit_of_mem_toDigits (by decide) (by decide) hc

end Text

namespace Emission

/-! ## Temporary names -/

/-- The names, of which the latest comes first, end in their numbers. -/
def NumberedNames : List String → Prop
  | [] => True
  | name :: earlier =>
    (∃ stem, name = stem ++ "_" ++ Nat.repr (earlier.length + 1)) ∧ NumberedNames earlier

namespace NumberedNames

variable {names : List String}

theorem exists_number (h : NumberedNames names) {name : String} (hname : name ∈ names) :
    ∃ stem number, name = stem ++ "_" ++ Nat.repr number ∧ number ≤ names.length := by
  induction names with
  | nil => cases hname
  | cons latest earlier ih =>
      rcases List.mem_cons.1 hname with rfl | hname
      · obtain ⟨stem, hstem⟩ := h.1
        exact ⟨stem, _, hstem, Nat.le_refl _⟩
      · obtain ⟨stem, number, hnumber, hle⟩ := ih h.2 hname
        exact ⟨stem, number, hnumber, Nat.le_succ_of_le hle⟩

/-- A name with the next number is new. -/
theorem next_not_mem (h : NumberedNames names) (stem : String) :
    stem ++ "_" ++ Nat.repr (names.length + 1) ∉ names := by
  intro hmem
  obtain ⟨other, number, hsame, hle⟩ := h.exists_number hmem
  have := Text.number_eq_of_eq hsame
  omega

theorem nodup (h : NumberedNames names) : names.Nodup := by
  induction names with
  | nil => exact List.nodup_nil
  | cons latest earlier ih =>
      obtain ⟨⟨stem, rfl⟩, hearlier⟩ := h
      exact List.nodup_cons.2 ⟨hearlier.next_not_mem stem, ih hearlier⟩

end NumberedNames

/-! ## Recorded values -/

/-- Every value that was asked for is the last one that had been recorded. -/
def TruthfulAccesses : List Access → Prop
  | [] => True
  | .recorded _ _ _ :: older => TruthfulAccesses older
  | .resolved _ source _ found _ :: older =>
    found = (recordings older).lookup source ∧ TruthfulAccesses older

theorem TruthfulAccesses.of_append {newer older : List Access}
    (h : TruthfulAccesses (newer ++ older)) : TruthfulAccesses older := by
  induction newer with
  | nil => exact h
  | cons access newer ih =>
      cases access with
      | recorded => exact ih h
      | resolved => exact ih h.2

/-- A value that was recorded and not since then is the one that is found. -/
theorem lookup_recordings {since older : List Access} {nodeId expr : String} {site : Site}
    (h : ∀ other place, .recorded nodeId other place ∉ since) :
    (recordings (since ++ .recorded nodeId expr site :: older)).lookup nodeId = some expr := by
  induction since with
  | nil => exact List.lookup_cons_self
  | cons access since ih =>
      obtain ⟨hfirst, hrest⟩ : (∀ other place, access ≠ .recorded nodeId other place) ∧
          ∀ other place, .recorded nodeId other place ∉ since := by
        simpa [not_or, forall_and, eq_comm] using h
      cases access with
      | resolved => exact ih hrest
      | recorded other value place =>
          have hne : (nodeId == other) = false :=
            beq_eq_false_iff_ne.2 fun hsame => hfirst value place (by rw [hsame])
          change ((other, value) :: recordings _).lookup nodeId = _
          rw [List.lookup_cons, hne]
          exact ih hrest

/-! ## Contexts -/

namespace Context

/-- Names are numbered and values are kept account of. -/
structure Proper (context : Context) : Prop where
  temps : context.temps = context.names.length
  numbered : NumberedNames context.names
  values : context.values = recordings context.accesses
  truthful : TruthfulAccesses context.accesses

variable {context final : Context}

namespace Proper

theorem of_empty (hnames : context.names = []) (htemps : context.temps = 0)
    (hvalues : context.values = []) (haccesses : context.accesses = []) : context.Proper where
  temps := by rw [htemps, hnames]; rfl
  numbered := hnames ▸ trivial
  values := by rw [hvalues, haccesses]; rfl
  truthful := haccesses ▸ trivial

theorem nextName_eq (h : context.Proper) (stem : String) :
    context.nextName stem = stem ++ "_" ++ Nat.repr (context.names.length + 1) := by
  rw [nextName, h.temps]

/-- A name is new when it is given out. -/
theorem nextName_not_mem (h : context.Proper) (stem : String) :
    context.nextName stem ∉ context.names :=
  h.nextName_eq stem ▸ h.numbered.next_not_mem stem

theorem step (h : context.Proper) (hstep : Step context final) : final.Proper := by
  cases hstep with
  | issue stem =>
      exact ⟨congrArg (· + 1) h.temps, ⟨⟨stem, h.nextName_eq stem⟩, h.numbered⟩, h.values,
        h.truthful⟩
  | record nodeId expr =>
      exact ⟨h.temps, h.numbered, congrArg (List.cons (nodeId, expr)) h.values, h.truthful⟩
  | ask consumer source port =>
      exact ⟨h.temps, h.numbered, h.values, by rw [valueOf?, h.values], h.truthful⟩
  | push | enter | exit | takeLines | standIn | withImport | warn | absorb =>
      exact ⟨h.temps, h.numbered, h.values, h.truthful⟩

theorem evolves (h : context.Proper) (hevolves : context.Evolves final) : final.Proper := by
  induction hevolves with
  | refl => exact h
  | tail _ hstep ih => exact ih.step hstep

end Proper

end Context

end Emission

end TickScript
