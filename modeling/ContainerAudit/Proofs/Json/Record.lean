import ContainerAudit.Json.Decode
import ContainerAudit.Proofs.Json.Tree
import ContainerAudit.Proofs.List
import Mathlib.Data.List.Nodup

/-!
# How lists, maps and records are read

Lists and maps are read part by part.  The members of an object that stands for a record are read
one after another: `Record.Step` is what one member can do to what has been read, and `Record.Run`
what several can do.

## Key results

- `decodeList_array_eq_ok_iff`, `decodeMembers_object_eq_ok_iff`: which lists and maps are read
- `Record.readMembers_eq_ok_iff`: reading members successfully is a run over them
- `Record.decode_object_eq_ok_iff`: which records are read from an object
-/

namespace ContainerAudit.Json

variable {α : Type}

/-! ## Lists and maps -/

/-- Which results come of parts that are read before the place of a fault. -/
private theorem bind_needed_eq_ok_iff {e : Except DecodeError α} {fault : Option Break} {x : α} :
    (do let y ← e; needed fault; return y) = .ok x ↔ e = .ok x ∧ fault = none := by
  cases e with
  | error e => simp [bind, Except.bind]
  | ok y => cases fault <;> simp [needed, bind, Except.bind, pure, Except.pure]

/-- Which lists are read from an array. -/
theorem decodeList_array_eq_ok_iff {decode : Decoder α} {items : List Tree} {fault : Option Break}
    {values : List α} :
    decodeList decode (.array items fault) = .ok values ↔
      List.Forall₂ (fun t x => decode t = .ok x) items values ∧ fault = none := by
  rw [← List.mapM_eq_ok_iff]
  exact bind_needed_eq_ok_iff

/-- Which maps are read from an object. -/
theorem decodeMembers_object_eq_ok_iff {decode : Decoder α}
    {members : List (Option String × Tree)} {fault : Option Break} {values : List (String × α)} :
    decodeMembers decode (.object members fault) = .ok values ↔
      List.Forall₂ (fun m v => m.1 = some v.1 ∧ decode m.2 = .ok v.2) members values ∧
        fault = none := by
  have hmember (m : Option String × Tree) (v : String × α) :
      (m.1 = some v.1 ∧ decode m.2 = .ok v.2) ↔
        (do return (← memberName m.1, ← decode m.2) : Except DecodeError (String × α)) = .ok v := by
    obtain ⟨_ | name, t⟩ := m
    · simp [memberName, bind, Except.bind]
    · cases decode t <;> simp [memberName, bind, Except.bind, pure, Except.pure, Prod.ext_iff]
  simp only [hmember]
  rw [← List.mapM_eq_ok_iff]
  exact bind_needed_eq_ok_iff

/-! ## Independent fields -/

/-- Two fields can be set in either order. -/
def RecordField.Commutes (f g : RecordField α) : Prop :=
  ∀ t u set set', f.read t = .ok set → g.read u = .ok set' → ∀ x, set (set' x) = set' (set x)

instance : @Std.Symm (RecordField α) RecordField.Commutes where
  symm _ _ h t u set set' hset hset' x := (h u t set' set hset' hset x).symm

/-- Fields are set in either order if that holds of every two values for them. -/
private theorem RecordField.commutes_of_set {β γ : Type} {name name' : String}
    {required required' : Bool} {decode : Decoder β} {decode' : Decoder γ} {set : β → α → α}
    {set' : γ → α → α} {write write' : α → Value}
    (h : ∀ v w x, set v (set' w x) = set' w (set v x)) :
    RecordField.Commutes ⟨name, required, fun t => (decode t).map set, write⟩
      ⟨name', required', fun t => (decode' t).map set', write'⟩ := by
  intro t u f g hf hg x
  simp only at hf hg
  -- Both values were read, so what is set are these two.
  cases ht : decode t with
  | error e =>
    rw [ht] at hf
    cases hf
  | ok v =>
    cases hu : decode' u with
    | error e =>
      rw [hu] at hg
      cases hg
    | ok w =>
      rw [ht] at hf
      rw [hu] at hg
      obtain rfl := Except.ok.inj hf
      obtain rfl := Except.ok.inj hg
      exact h v w x

/-- Two optional fields. -/
@[simp]
theorem RecordField.commutes_optional {β γ : Type} {name name' : String} {codec : Codec β}
    {codec' : Codec γ} {get : α → β} {get' : α → γ} {set : β → α → α} {set' : γ → α → α}
    (h : ∀ v w x, set v (set' w x) = set' w (set v x)) :
    Commutes (.optional name codec get set) (.optional name' codec' get' set') :=
  commutes_of_set h

/-- Two mandatory fields. -/
@[simp]
theorem RecordField.commutes_mandatory {β γ : Type} {name name' : String} {codec : Codec β}
    {codec' : Codec γ} {get : α → β} {get' : α → γ} {set : β → α → α} {set' : γ → α → α}
    (h : ∀ v w x, set v (set' w x) = set' w (set v x)) :
    Commutes (.mandatory name codec get set) (.mandatory name' codec' get' set') :=
  commutes_of_set h

/-- The fields of a record type have names of their own and can be set in any order. -/
structure Record.IsIndependent (r : Record α) : Prop where
  nodup : (r.fields.map (·.name)).Nodup
  commutes : r.fields.Pairwise RecordField.Commutes

/-! ## Reading members -/

namespace Record

variable {r : Record α}

/-- What one member can do to the names of the fields so far and the record. -/
inductive Step (r : Record α) :
    Option String × Tree → List String × α → List String × α → Prop where
  /-- A member that is no field is skipped. -/
  | skip {name : String} {value : Tree} {seen : List String} {x : α}
    (hname : ∀ f ∈ r.fields, f.name ≠ name) (hvalue : value.IsWhole) :
    Step r (some name, value) (seen, x) (seen, x)
  /-- A member that is a field sets it, once. -/
  | set {f : RecordField α} {value : Tree} {set : α → α} {seen : List String} {x : α}
    (hf : f ∈ r.fields) (hseen : f.name ∉ seen) (hread : f.read value = .ok set) :
    Step r (some f.name, value) (seen, x) (f.name :: seen, set x)

/-- What members can do, one after another. -/
inductive Run (r : Record α) :
    List (Option String × Tree) → List String × α → List String × α → Prop where
  | nil (p : List String × α) : Run r [] p p
  | cons {m : Option String × Tree} {rest : List (Option String × Tree)} {p q t : List String × α}
    (hstep : r.Step m p q) (hrest : Run r rest q t) : Run r (m :: rest) p t

/-- No field is found by a name that none has. -/
private theorem find?_name_eq_none_iff {name : String} :
    r.fields.find? (·.name = name) = none ↔ ∀ f ∈ r.fields, f.name ≠ name := by
  simp [List.find?_eq_none]

/-- A field is found by its name. -/
private theorem find?_name (hnodup : (r.fields.map (·.name)).Nodup) {f : RecordField α}
    (hf : f ∈ r.fields) : r.fields.find? (·.name = f.name) = some f := by
  cases hfound : r.fields.find? (·.name = f.name) with
  | none => exact absurd rfl (find?_name_eq_none_iff.mp hfound f hf)
  | some g =>
    have hname : g.name = f.name := by simpa using List.find?_some hfound
    rw [List.inj_on_of_nodup_map hnodup (List.mem_of_find?_eq_some hfound) hf hname]

/-- A member that is no field is skipped, unless there is a fault in it. -/
private theorem readMembers_skip {name : String} (hname : ∀ f ∈ r.fields, f.name ≠ name)
    (value : Tree) (rest : List (Option String × Tree)) (seen : List String) (x : α) :
    r.readMembers ((some name, value) :: rest) seen x =
      (value.skip.mapError .fault).bind fun _ => r.readMembers rest seen x := by
  rw [readMembers, memberName]
  simp only [Except.bind, bind, find?_name_eq_none_iff.mpr hname]

/-- A member that is a field is read and sets it, unless the field was set before. -/
private theorem readMembers_set (hnodup : (r.fields.map (·.name)).Nodup) {f : RecordField α}
    (hf : f ∈ r.fields) (value : Tree) (rest : List (Option String × Tree)) (seen : List String)
    (x : α) :
    r.readMembers ((some f.name, value) :: rest) seen x =
      if seen.contains f.name then .error (.misfit (.duplicateField f.name))
      else (f.read value).bind fun set => r.readMembers rest (f.name :: seen) (set x) := by
  rw [readMembers, memberName]
  simp only [Except.bind, bind, find?_name hnodup hf]
  split <;> rfl

/-- Reading members successfully is a run over them. -/
theorem readMembers_eq_ok_iff (hnodup : (r.fields.map (·.name)).Nodup)
    {members : List (Option String × Tree)} {p q : List String × α} :
    r.readMembers members p.1 p.2 = .ok q ↔ r.Run members p q := by
  constructor
  · -- Induction on the members, each of which either is skipped or sets a field.
    intro h
    induction members generalizing p with
    | nil =>
      obtain rfl : p = q := Except.ok.inj h
      exact .nil _
    | cons m rest ih =>
      obtain ⟨_ | name, value⟩ := m
      -- A name that is no text cannot be compared with the names of fields.
      · cases h
      by_cases hname : ∀ f ∈ r.fields, f.name ≠ name
      · rw [readMembers_skip hname] at h
        cases hskip : value.skip with
        | error fault =>
          rw [hskip] at h
          cases h
        | ok _ =>
          rw [hskip] at h
          exact .cons (.skip hname hskip) (ih h)
      · push Not at hname
        obtain ⟨f, hf, rfl⟩ := hname
        rw [readMembers_set hnodup hf] at h
        split at h
        · cases h
        · rename_i hseen
          cases hread : f.read value with
          | error e =>
            rw [hread] at h
            cases h
          | ok set =>
            rw [hread] at h
            exact .cons (.set hf (by simpa using hseen) hread) (ih (p := (_, _)) h)
  · -- Induction on the run, whose steps say what reading does.
    intro h
    induction h with
    | nil p => rfl
    | cons hstep _ ih =>
      cases hstep with
      | skip hname hvalue =>
        rw [readMembers_skip hname, hvalue]
        exact ih
      | set hf hseen hread =>
        rw [readMembers_set hnodup hf, if_neg (by simpa using hseen), hread]
        exact ih

/-- Which records are read from an object. -/
theorem decode_object_eq_ok_iff (hnodup : (r.fields.map (·.name)).Nodup)
    {members : List (Option String × Tree)} {fault : Option Break} {y : α} :
    r.decode (.object members fault) = .ok y ↔
      fault = none ∧ ∃ seen, r.Run members ([], r.start) (seen, y) ∧
        ∀ f ∈ r.fields, f.required = true → f.name ∈ seen := by
  have hrun (q : List String × α) :
      r.Run members ([], r.start) q ↔ r.readMembers members [] r.start = .ok q :=
    (readMembers_eq_ok_iff hnodup).symm
  simp only [hrun, decode]
  cases r.readMembers members [] r.start with
  | error e => simp [bind, Except.bind]
  | ok q =>
    obtain ⟨seen, x⟩ := q
    cases fault with
    | some fault => simp [needed, bind, Except.bind]
    | none =>
      -- The search for a mandatory field that was not set fails exactly if all were.
      have hmissing : (r.fields.find? fun f => f.required && !decide (f.name ∈ seen)) = none ↔
          ∀ f ∈ r.fields, f.required = true → f.name ∈ seen := by
        simp [List.find?_eq_none]
      cases hfind : r.fields.find? fun f => f.required && !decide (f.name ∈ seen) with
      | none =>
        have hpresent := hmissing.mp hfind
        simpa [needed, bind, Except.bind, pure, Except.pure, hfind] using fun _ => hpresent
      | some f =>
        have habsent : ¬∀ f ∈ r.fields, f.required = true → f.name ∈ seen :=
          fun hpresent => by simp [hmissing.mpr hpresent] at hfind
        simp [needed, bind, Except.bind, throw, throwThe, MonadExceptOf.throw, hfind, habsent]

/-! ### Reading items -/

/-- An item sets the field in whose place it stands. -/
theorem readItems_cons_eq_ok_iff {f : RecordField α} {fields : List (RecordField α)} {item : Tree}
    {items : List Tree} {fault : Option Break} {x y : α} :
    r.readItems fault (f :: fields) (item :: items) x = .ok y ↔
      ∃ set, f.read item = .ok set ∧ r.readItems fault fields items (set x) = .ok y := by
  rw [readItems]
  cases f.read item <;> simp [bind, Except.bind]

/-- Fields for which no items are left do not hide a fault. -/
theorem readItems_nil {fields : List (RecordField α)} {fault : Option Break} {x y : α}
    (h : r.readItems fault fields [] x = .ok y) : fault = none := by
  cases fault with
  | none => rfl
  | some fault => cases fields <;> cases h

end Record

end ContainerAudit.Json
