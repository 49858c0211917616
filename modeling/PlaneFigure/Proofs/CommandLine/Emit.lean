import PlaneFigure.Proofs.Drawing.Attempts
import PlaneFigure.Proofs.Files.Tree
import PlaneFigure.Proofs.Json.Natural

/-!
Writing drawings. The drawing is written first, and then a record of where it came from, into the same
directory and under a name that is made from that of the drawing. Made in this way it is never the
same name, so the drawing is not lost.
-/

namespace PlaneFigure.CommandLine

variable {version : Version} {instructions out file : Path} {d : Drawing} {t t' : FileTree}
  {o : BuildOptions} {content : Json} {arguments : List Bytes}

theorem write_eq_ok (h : write (m := StateM FileTree) file content t = (.ok (), t')) :
    t.write? file (.ofString content.renderIndented) = some t' := by
  cases hw : t.write? file (.ofString content.renderIndented) with
  | none =>
      have hfail : write (m := StateM FileTree) file content t = (.error (.writing file), t) := by
        simp only [write, Files.write, bind, StateT.bind, FileTree.attempt, hw]
        rfl
      rw [hfail] at h
      cases h
  | some t₁ =>
      have hdone : write (m := StateM FileTree) file content t = (.ok (), t₁) := by
        simp only [write, Files.write, bind, StateT.bind, FileTree.attempt, hw]
        rfl
      rw [hdone] at h
      cases h
      rfl

/-- A record is written only where there is one. -/
theorem writeRecord_eq_ok {p : Provenance}
    (h : writeRecord (m := StateM FileTree) file p t = (.ok (), t')) :
    ∃ record, p.toJson? = some record ∧
      t.write? file (.ofString record.renderIndented) = some t' := by
  cases hrecord : p.toJson? with
  | none =>
      simp only [writeRecord, hrecord] at h
      cases h
  | some record =>
      simp only [writeRecord, hrecord] at h
      exact ⟨record, rfl, write_eq_ok h⟩

/-- Two steps succeed just if the first does, and the second after it. -/
theorem exists_of_bind_eq_ok {σ ε α β : Type} {x : ExceptT ε (StateM σ) α}
    {f : α → ExceptT ε (StateM σ) β} {s s' : σ} {b : β}
    (h : (x >>= f).run s = (.ok b, s')) :
    ∃ a s₁, x.run s = (.ok a, s₁) ∧ (f a).run s₁ = (.ok b, s') := by
  cases hx : x.run s with
  | mk r s₁ =>
      have hbind : (x >>= f).run s = ExceptT.bindCont f r s₁ := by
        show (match x.run s with | (r, s₁) => ExceptT.bindCont f r s₁) = _
        rw [hx]
      rw [hbind] at h
      cases r with
      | error e => cases h
      | ok a => exact ⟨a, s₁, rfl, h⟩

/-- Both files are written, the drawing first. -/
theorem emit_eq_ok (h : emit (m := StateM FileTree) version instructions out d t = (.ok (), t')) :
    ∃ (t₁ t₂ : FileTree) (record : Json),
      t₁.write? out (.ofString d.toJson.renderIndented) = some t₂ ∧
      Provenance.toJson? { version, instructions, seed := d.seed, outputs := [out.text] } =
          some record ∧
        t₂.write? (Provenance.path out) (.ofString record.renderIndented) = some t' := by
  obtain ⟨_, t₁, _, h⟩ := exists_of_bind_eq_ok h
  obtain ⟨_, t₂, hdrawing, h⟩ := exists_of_bind_eq_ok h
  obtain ⟨record, hrecord, hwrite⟩ := writeRecord_eq_ok h
  exact ⟨t₁, t₂, record, write_eq_ok hdrawing, hrecord, hwrite⟩

/-- The text of a file can be read as what is known of where a drawing came from. -/
def Provenance.IsRecordedBy (p : Provenance) (text : String) : Prop :=
  ∃ members instructions, Json.parse? text = some (.object members) ∧
    p.instructions = .ofString instructions ∧
    Json.occurrence "code_rev" members = .once (.string p.version.revision) ∧
    Json.occurrence "version" members = .once (.string p.version.number) ∧
    Json.occurrence "instructions" members = .once (.string instructions) ∧
    Json.occurrence "seed" members = .once (.nat p.seed.toNat) ∧
    Json.occurrence "outputs" members = .once (.strings p.outputs)

/-- The record of a drawing says where it came from. -/
theorem Provenance.isRecordedBy {p : Provenance} {record : Json} (h : p.toJson? = some record) :
    p.IsRecordedBy record.renderIndented := by
  obtain ⟨instructions, htext, hrecord⟩ := Option.bind_eq_some_iff.mp h
  cases hrecord
  have hreadable : ∀ n, Json.Readable (n + 2) (.object [("code_rev", .string p.version.revision),
      ("version", .string p.version.number), ("instructions", .string instructions),
      ("seed", .nat p.seed.toNat), ("outputs", .strings p.outputs)]) := fun n =>
    .object (by
      simpa using ⟨.string _, .string _, .string _, Json.readable_nat p.seed.toNat_lt,
        Json.readable_strings _⟩)
  have hpath : p.instructions = .ofString instructions :=
    congrArg Path.mk (Bytes.text?_eq_some.mp htext)
  exact ⟨_, instructions, (hreadable 125).parse?_renderIndented, hpath, by simp [Json.occurrence]⟩

/-- What is in a tree when a drawing was written to a path: the drawing itself, and beside it, under
another name, a record of where it came from. What is recorded of the path is a text, and this is the
path itself just where the path is a text. -/
structure Emitted (version : Version) (instructions out : Path) (d : Drawing) (t : FileTree)
    (name sidecar : Bytes) : Prop where
  fileName : out.fileName? = some name
  sidecar_eq : sidecar = Path.stem name ++ .ofString ".provenance.json"
  sidecar_ne : sidecar ≠ name
  beside : ∃ directory, t.locate? out = some (directory ++ [name]) ∧
    t.locate? (Provenance.path out) = some (directory ++ [sidecar])
  drawing : t.read? out = some (.ofString d.toJson.renderIndented)
  record : ∃ text, t.read? (Provenance.path out) = some (.ofString text) ∧
    Provenance.IsRecordedBy { version, instructions, seed := d.seed, outputs := [out.text] } text
  recorded : .ofString out.text = out ↔ ∃ s, out = .ofString s

theorem sidecar_isName {c : Bytes} (hc : Path.IsName c) :
    Path.IsName (Path.stem c ++ .ofString ".provenance.json") := by
  have hlength : 16 ≤ (Path.stem c ++ Bytes.ofString ".provenance.json").length := by
    rw [List.length_append]
    exact Nat.le_add_left _ _
  refine ⟨?_, ?_, ?_, ?_⟩
  · intro hmem
    obtain hmem | hmem := List.mem_append.mp hmem
    · exact hc.noSlash ((Path.stem_isPrefix c).subset hmem)
    · exact absurd hmem (by decide)
  all_goals
    intro heq
    simp [heq] at hlength

/-- A drawing that was written is kept, whatever the path and whatever was there before. -/
theorem emit_emitted (h : emit (m := StateM FileTree) version instructions out d t = (.ok (), t')) :
    ∃ name sidecar, Emitted version instructions out d t' name sidecar := by
  obtain ⟨t₁, t₂, record, hfirst, hrecord, hsecond⟩ := emit_eq_ok h
  obtain ⟨_, hwrites⟩ := FileTree.writes_of_write? hfirst
  have hname := hwrites.isName
  let sidecar := Path.stem out.last ++ .ofString ".provenance.json"
  have hpath : Provenance.path out = out.sibling sidecar := by
    simp only [Provenance.path, Path.fileName?_eq hname, sidecar]
  have hne : sidecar ≠ out.last := by
    have hend : Bytes.ofString ".provenance.json" =
        Path.dot :: Bytes.ofString "provenance" ++ Path.dot :: Bytes.ofString "json" := by decide
    simp only [sidecar, hend]
    exact Path.stem_append_ne (by decide) out.last
  rw [hpath] at hsecond
  obtain ⟨hfile, hread, hread', hbeside⟩ :=
    FileTree.read?_siblings hfirst (sidecar_isName hname) hne hsecond
  rw [← hpath] at hread' hbeside
  exact ⟨out.last, sidecar, hfile, rfl, hne, hbeside, hread,
    ⟨_, hread', Provenance.isRecordedBy hrecord⟩, out.ofString_text⟩

/-! ### Carrying out a command -/

theorem build_eq (o : BuildOptions) (t : FileTree) :
    build (m := StateM FileTree) o t = match (t.read? o.instructions).bind Bytes.text? with
      | none => (.error (.reading o.instructions), t)
      | some text => (draw o text, t) := by
  show (match (t.read? o.instructions).bind Bytes.text? with
    | none => pure (.error (.reading o.instructions))
    | some text => pure (draw o text) : StateM FileTree _) t = _
  cases (t.read? o.instructions).bind Bytes.text? <;> rfl

theorem run_build (hcommand : Command.ofArguments arguments = .ok (.build o))
    (hout : o.out = some out) :
    run (m := StateM FileTree) version arguments t =
      match build (m := StateM FileTree) o t with
      | (.error f, t) => (.failed f, t)
      | (.ok d, t) =>
        match emit (m := StateM FileTree) version o.instructions out d t with
        | (.ok (), t) => (.drawing d true, t)
        | (.error f, t) => (.failed f, t) := by
  simp only [run, hcommand, bind, StateT.bind]
  cases build (m := StateM FileTree) o t with
  | mk r t₁ =>
      cases r with
      | error f => rfl
      | ok d =>
          simp only [hout, StateT.bind]
          cases emit (m := StateM FileTree) version o.instructions out d t₁ with
          | mk r t₂ => cases r <;> rfl

/-- The command that was given an output path and ends with a drawing has written this drawing. -/
theorem run_eq_drawing {written : Bool}
    (hcommand : Command.ofArguments arguments = .ok (.build o)) (hout : o.out = some out)
    (h : run (m := StateM FileTree) version arguments t = (.drawing d written, t')) :
    ∃ text, t.read? o.instructions = some (.ofString text) ∧ draw o text = .ok d ∧
      emit (m := StateM FileTree) version o.instructions out d t = (.ok (), t') := by
  rw [run_build hcommand hout, build_eq] at h
  cases htext : (t.read? o.instructions).bind Bytes.text? with
  | none =>
      simp only [htext] at h
      cases h
  | some text =>
      simp only [htext] at h
      cases hdraw : draw o text with
      | error f =>
          simp only [hdraw] at h
          cases h
      | ok d₁ =>
          simp only [hdraw] at h
          cases hemit : emit (m := StateM FileTree) version o.instructions out d₁ t with
          | mk r t₂ =>
              rw [hemit] at h
              cases r <;> cases h
              obtain ⟨content, hcontent, hbytes⟩ := Option.bind_eq_some_iff.mp htext
              exact ⟨text, Bytes.text?_eq_some.mp hbytes ▸ hcontent, hdraw, hemit⟩

def Result.isWritten : Result → Bool
  | .drawing _ true => true
  | _ => false

theorem exists_of_isWritten {x : Result × FileTree} (h : x.1.isWritten = true) :
    ∃ d t', x = (.drawing d true, t') := by
  obtain ⟨r, t'⟩ := x
  cases r with
  | drawing d written =>
      cases written with
      | false => cases h
      | true => exact ⟨d, t', rfl⟩
  | _ => cases h

/-- A working directory with nothing in it but an empty list of instructions. -/
def onlyInstructions : FileTree :=
  ⟨.directory [(.ofString "work", .directory
    [(.ofString "empty.json", .file (.ofString "[]"))])], [.ofString "work"]⟩

/-- The arguments with which these instructions are drawn to a file. -/
def drawEmpty (out : Path) : List Bytes :=
  [.ofString "build", .ofString "--instructions", .ofString "empty.json", .ofString "--out",
    out.bytes]

def emptyOptions (out : Path) : BuildOptions :=
  ⟨.ofString "empty.json", 0, 1, 5000, 1e-10, 0.0, 0.0, some out⟩

end PlaneFigure.CommandLine
