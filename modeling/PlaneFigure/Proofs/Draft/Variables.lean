import PlaneFigure.Proofs.Draft.Determined
import PlaneFigure.Proofs.Draft.Tables

/-!
The variables of a run, in the order of their creation. Their names follow from the instructions: a
free point lends its name to its variables, but all polygons, and all triangles, name theirs alike.
-/

namespace PlaneFigure

/-- The names of the variables of free points, polygons and triangles. -/
def sampledVariables (sampler : String) (points : List String) : List String :=
  match sampler with
  | "uniform" => points.flatMap fun name => [name ++ "x", name ++ "y"]
  | "polygon" | "triangle" =>
    let vertices := List.range points.length
    vertices.map (fun i => "polygon_angle_z_" ++ toString i) ++
      vertices.map fun i => "polygon_scale_z_" ++ toString i
  | "isoTri" | "acuteIsoTri" => ["tri"]
  | "acuteTri" => ["tri_x", "tri"]
  | "rightTri" => ["tri_x"]
  | _ => []

/-- The names of the variables that an instruction creates. -/
def Instruction.varNames : Instruction → List String
  | sample points sampler _ => sampledVariables sampler points
  | parameterize point _ => [point ++ "x", point ++ "y"]
  | _ => []

namespace Placement

variable {names : List String} {p : Placement}

theorem ofPolygon_varNames (h : ofPolygon names = .ok p) :
    p.varNames = sampledVariables "polygon" names := by
  obtain ⟨hlength, rfl⟩ := ofPolygon_eq_ok.mp h
  simp only [varNames, sampledVariables, range_eq_cons (Nat.zero_lt_of_lt hlength)]

theorem shaped_varNames {shape : TriangleShape} (hshape : shape.isPlain = false)
    (h : ofSampler (.triangle shape) names = .ok p) : p.varNames = apexVariables shape := by
  simp only [ofSampler, hshape, Bool.false_eq_true, if_false] at h
  split at h
  · obtain ⟨corner, -, h⟩ := bind_eq_ok.mp h
    cases h
    rfl
  · cases h

theorem ofSampler_varNames {id : String} {args : List String} {s : Sampler}
    (hs : Sampler.ofId id args = .ok s) (h : ofSampler s names = .ok p) :
    p.varNames = sampledVariables id names := by
  unfold Sampler.ofId at hs
  split at hs
  case h_1 =>
    cases hs
    cases h
    rfl
  case h_2 | h_3 =>
    cases hs
    exact ofPolygon_varNames h
  case h_5 | h_8 =>
    cases hs
    exact shaped_varNames rfl h
  case h_9 => cases hs
  -- the vertex that the arguments name does not matter
  all_goals
    obtain ⟨v, -, hs⟩ := bind_eq_ok.mp hs
    cases hs
    exact shaped_varNames rfl h

end Placement

section Run

variable {S R μ : Type} [Number R]

theorem PointTable.check_varNames {t : PointTable S} {i : Instruction} {a : Action S}
    (h : t.check i = .ok a) : (a.outline : Outline R).vars = i.varNames := by
  cases i with
  | sample points sampler args =>
      obtain ⟨-, s, p, hs, hp, rfl⟩ := check_sample h
      exact Placement.ofSampler_varNames hs hp
  | compute point c => obtain ⟨-, ⟨k, rfl⟩ | ⟨l, m, rfl⟩⟩ := check_compute h <;> rfl
  | parameterize point id =>
      obtain ⟨-, rfl⟩ := check_parameterize h
      rfl
  | assert c =>
      obtain ⟨-, kind, points, r, -, -, -, -, rfl⟩ := constraint_eq_ok.mp h
      rfl

namespace Draft

variable [Uniform R] [Scalar S R μ] {d d' : Draft S R μ}

theorem processAll_varNames {is : List Instruction} (h : processAll is d = .ok d') :
    d'.canvas.varNames = d.canvas.varNames ++ is.flatMap Instruction.varNames := by
  induction is generalizing d with
  | nil =>
      cases h
      exact (List.append_nil _).symm
  | cons i is ih =>
      simp only [processAll] at h
      split at h
      next hi =>
        obtain ⟨a, hcheck, houtline⟩ := process_outline hi
        have hvars : Canvas.varNames _ = d.canvas.varNames ++ (a.outline : Outline R).vars :=
          congrArg Outline.vars houtline
        rw [ih h, hvars, PointTable.check_varNames hcheck, List.append_assoc]
        rfl
      next => cases h

/-- The variables of a draft are those that its instructions create, one after the other. -/
theorem ofInstructions_varNames {canvas : Canvas R μ} {settings : DraftSettings R}
    {is : List Instruction} (h : ofInstructions canvas settings is = .ok d) :
    d.canvas.varNames = canvas.varNames ++ is.flatMap Instruction.varNames := by
  obtain ⟨d₀, hd₀, h⟩ := bind_eq_ok.mp h
  cases h
  have hfinish : d₀.finish.canvas.varNames = d₀.canvas.varNames :=
    (congrArg Outline.vars finish_outline).trans (List.append_nil _)
  rw [hfinish, processAll_varNames hd₀]

end Draft

end Run

end PlaneFigure
