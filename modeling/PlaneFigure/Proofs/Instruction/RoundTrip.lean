import PlaneFigure.Proofs.Instruction.Layout
import PlaneFigure.Proofs.Json.RoundTrip

/-!
Instructions that are written as text are read back as they were. Their documents are writings of
them, and nest few enough containers for the reader.
-/

namespace PlaneFigure

open Json

/-! ### Documents of instructions are writings of them -/

theorem LineSpec.writtenAs_toJson (l : LineSpec) : l.WrittenAs l.toJson :=
  .object (by simp [Holds])

theorem Operand.writtenAs_toJson (o : Operand) : o.WrittenAs o.toJson := by
  cases o with
  | point name => rfl
  | line spec => exact spec.writtenAs_toJson

theorem Computation.writtenAs_toJson (c : Computation) : c.WrittenAs c.toJson := by
  refine ⟨c.operands.map Operand.toJson, .object (by simp [Holds]),
    List.forall₂_map_left_iff.mpr ?_⟩
  exact List.forall₂_same.mpr fun o _ => o.writtenAs_toJson

theorem Constraint.writtenAs_toJson (c : Constraint) : c.WrittenAs c.toJson :=
  ⟨_, .object (by simp [Holds]), .inr rfl⟩

namespace Instruction

theorem writtenAs_toJson (i : Instruction) : i.WrittenAs i.toJson := by
  cases i with
  | sample points sampler args => exact ⟨_, .object (by simp [Holds]), .inr rfl⟩
  | compute point computation => exact ⟨_, .object (by simp [Holds]), computation.writtenAs_toJson⟩
  | parameterize point parameterization => exact .object (by simp [Holds])
  | assert constraint => exact ⟨_, .object (by simp [Holds]), constraint.writtenAs_toJson⟩

theorem listWrittenAs_listToJson (is : List Instruction) : ListWrittenAs is (listToJson is) :=
  ⟨_, rfl, List.forall₂_map_left_iff.mpr (List.forall₂_same.mpr fun i _ => i.writtenAs_toJson)⟩

end Instruction

/-! ### They can be read -/

variable {n : Nat}

theorem LineSpec.readable_toJson (l : LineSpec) : Readable (n + 2) l.toJson :=
  .object (by simpa using ⟨.string l.pred, readable_strings l.points⟩)

theorem Operand.readable_toJson (o : Operand) : Readable (n + 2) o.toJson := by
  cases o with
  | point name => exact .string name
  | line spec => exact spec.readable_toJson

theorem Computation.readable_toJson (c : Computation) : Readable (n + 4) c.toJson := by
  have hoperands : Readable (n + 3) (.array (c.operands.map Operand.toJson)) :=
    .array (List.forall_mem_map.mpr fun o _ => o.readable_toJson)
  exact .object (by simpa using ⟨.string c.method, hoperands⟩)

theorem Constraint.readable_toJson (c : Constraint) : Readable (n + 2) c.toJson :=
  .object (by simpa using ⟨.string c.pred, readable_strings c.points, .bool c.negate⟩)

namespace Instruction

theorem readable_toJson (i : Instruction) : Readable (n + 5) i.toJson := by
  cases i with
  | sample points sampler args =>
      exact .object (by
        simpa using ⟨.string _, readable_strings points, .string sampler, readable_strings args⟩)
  | compute point computation =>
      exact .object (by simpa using ⟨.string _, .string point, computation.readable_toJson⟩)
  | parameterize point parameterization =>
      exact .object (by simpa using ⟨.string _, .string point, .string parameterization⟩)
  | assert constraint =>
      exact .object (by simpa using ⟨.string _, constraint.readable_toJson⟩)

theorem readable_listToJson (is : List Instruction) : Readable (n + 6) (listToJson is) :=
  .array (List.forall_mem_map.mpr fun i _ => i.readable_toJson)

/-- Instructions written on one line or on several are read back, and so a text that holds
instructions means the same after it is read and written again. -/
theorem round_trip :
    (∀ is : List Instruction, parse? (render is) = some is ∧
      parse? (listToJson is).renderIndented = some is) ∧
    ∀ text : String, ((parse? text).bind fun is => parse? (render is)) = parse? text := by
  have hread (is : List Instruction) : listOfJson? (listToJson is) = some is :=
    listOfJson?_eq_some.mpr (listWrittenAs_listToJson is)
  have hreadable (is : List Instruction) : Readable maxDepth (listToJson is) :=
    readable_listToJson (n := 121) is
  have hrender (is : List Instruction) : parse? (render is) = some is := by
    rw [parse?, render, (hreadable is).parse?_render]
    exact hread is
  refine ⟨fun is => ⟨hrender is, ?_⟩, fun text => ?_⟩
  · rw [parse?, (hreadable is).parse?_renderIndented]
    exact hread is
  · cases parse? text with
    | none => rfl
    | some is => exact hrender is

end Instruction

end PlaneFigure
