import ContainerAudit.Proofs.Json.Record
import ContainerAudit.Proofs.List
import Mathlib.Data.List.Basic
import Mathlib.Data.List.Pairwise
import Mathlib.Data.List.Perm.Basic

/-!
# Edits that a reader does not see

A reader is stable under edits of a tree if it finds the same value in the edited tree.  Plain
values are not edited at all.  In an object that is read as a record the members may come in any
order, and members that no field has the name of may join them.  The values of its fields may be
edited in turn, as their own readers allow.

The order of members does not matter because a run over them can exchange any two neighbours: the
names that have been seen are then the same, and independent fields are set in either order.

## Key results

- `Record.Edited`: the edits of a tree that is read as a record
- `Record.Run.perm`: a run over members in any other order leads to the same record
- `Record.stable`: a record is stable if its fields are
-/

namespace ContainerAudit.Json

variable {α β : Type}

/-- A reader that finds the same value in an edited tree, if the grammar of JSON holds there. -/
structure Stable (decode : Decoder α) (edited : Tree → Tree → Prop) : Prop where
  isWhole : ∀ {t x}, decode t = .ok x → t.IsWhole
  decode_eq : ∀ {t t' x}, edited t t' → t'.IsWhole → decode t = .ok x → decode t' = .ok x

/-- What a function gives was made of something. -/
private theorem Except.exists_of_map_eq_ok {ε : Type} {e : Except ε α} {f : α → β} {y : β}
    (h : e.map f = .ok y) : ∃ x, e = .ok x ∧ f x = y := by
  cases e with
  | error e => cases h
  | ok x => exact ⟨x, rfl, Except.ok.inj h⟩

/-! ## Plain values -/

/-- Where nothing is edited, it only matters that faults are noticed. -/
private theorem Stable.eq {decode : Decoder α} (h : ∀ {t x}, decode t = .ok x → t.IsWhole) :
    Stable decode Eq where
  isWhole := h
  decode_eq := by
    rintro t _ x rfl _ hread
    exact hread

/-- What is done with a value afterwards does not matter. -/
theorem Stable.map {decode : Decoder α} {edited : Tree → Tree → Prop} (h : Stable decode edited)
    (f : α → β) : Stable (fun t => (decode t).map f) edited where
  isWhole hread := by
    obtain ⟨x, hx, -⟩ := Except.exists_of_map_eq_ok hread
    exact h.isWhole hx
  decode_eq hedited hwhole hread := by
    obtain ⟨x, hx, rfl⟩ := Except.exists_of_map_eq_ok hread
    exact congrArg (Except.map f) (h.decode_eq hedited hwhole hx)

/-- Texts. -/
theorem stable_text : Stable decodeText Eq := .eq fun {t x} h => by
  cases t with
  | text content => exact Tree.isWhole_text content
  | _ => cases h

/-- Flags. -/
theorem stable_bool : Stable decodeBool Eq := .eq fun {t x} h => by
  cases t with
  | boolean value => exact Tree.isWhole_boolean value
  | _ => cases h

/-- Integers in any range. -/
private theorem stable_integer (expected : String) (low high : Int) :
    Stable (decodeInteger expected low high) Eq := .eq fun {t x} h => by
  cases t with
  | number numeral => exact Tree.isWhole_number numeral
  | _ => cases h

theorem stable_uint32 : Stable decodeUInt32 Eq := (stable_integer _ _ _).map _

theorem stable_uint64 : Stable decodeUInt64 Eq := (stable_integer _ _ _).map _

theorem stable_int32 : Stable decodeInt32 Eq := (stable_integer _ _ _).map _

theorem stable_int64 : Stable decodeInt64 Eq := (stable_integer _ _ _).map _

/-! ## Options and lists -/

/-- Only `null` is read as an absent value. -/
private theorem decodeOption_of_ne_null (decode : Decoder α) {t : Tree} (h : t ≠ .null) :
    decodeOption decode t = (decode t).map some := by
  cases t with
  | null => exact absurd rfl h
  | _ => rfl

/-- A value that may be absent, where edits keep it absent or present. -/
theorem Stable.option {decode : Decoder α} {edited : Tree → Tree → Prop} (h : Stable decode edited)
    (hnull : ∀ {t t'}, edited t t' → (t = .null ↔ t' = .null)) :
    Stable (decodeOption decode) edited where
  isWhole {t x} hread := by
    -- An absent value is no fault, and a present one is read as any other.
    by_cases ht : t = .null
    · rw [ht]
      exact Tree.isWhole_null
    · rw [decodeOption_of_ne_null decode ht] at hread
      exact (h.map some).isWhole hread
  decode_eq {t t' x} hedited hwhole hread := by
    by_cases ht : t = .null
    · rw [(hnull hedited).mp ht]
      rwa [ht] at hread
    · have ht' : t' ≠ .null := fun ht' => ht ((hnull hedited).mpr ht')
      rw [decodeOption_of_ne_null decode ht] at hread
      rw [decodeOption_of_ne_null decode ht']
      exact (h.map some).decode_eq hedited hwhole hread

/-- A plain value that may be absent. -/
theorem Stable.option_eq {decode : Decoder α} (h : Stable decode Eq) :
    Stable (decodeOption decode) Eq :=
  h.option fun heq => by rw [heq]

/-- Edits of a list: its items may be edited. -/
inductive ListEdited (edited : Tree → Tree → Prop) : Tree → Tree → Prop where
  | same (t : Tree) : ListEdited edited t t
  | items {items items' : List Tree} {fault : Option Break}
    (h : List.Forall₂ edited items items') :
    ListEdited edited (.array items fault) (.array items' fault)

/-- A list is read item by item, so its items may be edited. -/
theorem Stable.list {decode : Decoder α} {edited : Tree → Tree → Prop} (h : Stable decode edited) :
    Stable (decodeList decode) (ListEdited edited) where
  isWhole {t x} hread := by
    cases t with
    | array items fault =>
      obtain ⟨hitems, rfl⟩ := decodeList_array_eq_ok_iff.mp hread
      exact Tree.isWhole_array_iff.mpr
        ⟨List.forall_mem_of_forall₂ hitems fun _ _ hvalue => h.isWhole hvalue, rfl⟩
    | _ => cases hread
  decode_eq {t t' x} hedited hwhole hread := by
    cases hedited with
    | same => exact hread
    | items hitems =>
      -- What each item was read as, its edited one is read as.
      rw [decodeList_array_eq_ok_iff] at hread ⊢
      have hitems' := (Tree.isWhole_array_iff.mp hwhole).1
      refine ⟨List.forall₂_of_forall₂ hitems hread.1 fun t t' x ht' hedited hvalue => ?_, hread.2⟩
      exact h.decode_eq hedited (hitems' t' ht') hvalue

/-- A list of plain values. -/
theorem Stable.list_eq {decode : Decoder α} (h : Stable decode Eq) :
    Stable (decodeList decode) Eq :=
  .eq fun hread => h.list.isWhole hread

/-! ## Maps -/

/-- Edits of a map with distinct names: its members may come in any order. -/
inductive MapEdited : Tree → Tree → Prop where
  | same (t : Tree) : MapEdited t t
  | members {members members' : List (Option String × Tree)} {fault : Option Break}
    (hnodup : (members.map (·.1)).Nodup) (h : members'.Perm members) :
    MapEdited (.object members fault) (.object members' fault)

/-- A map that is put to a use for which the order of distinct names does not matter. -/
theorem Stable.members {decode : Decoder α} (h : Stable decode Eq) {f : List (String × α) → β}
    (hf : ∀ {values values' : List (String × α)}, (values.map (·.1)).Nodup →
      values.Perm values' → f values = f values') :
    Stable (fun t => (decodeMembers decode t).map f) MapEdited where
  isWhole {t y} hread := by
    obtain ⟨values, hvalues, -⟩ := Except.exists_of_map_eq_ok hread
    cases t with
    | object members fault =>
      obtain ⟨hmembers, rfl⟩ := decodeMembers_object_eq_ok_iff.mp hvalues
      exact Tree.isWhole_object_iff.mpr
        ⟨List.forall_mem_of_forall₂ hmembers fun _ _ hvalue => h.isWhole hvalue.2, rfl⟩
    | _ => cases hvalues
  decode_eq {t t' y} hedited hwhole hread := by
    cases hedited with
    | same => exact hread
    | @members members members' fault hnodup hperm =>
      obtain ⟨values, hvalues, rfl⟩ := Except.exists_of_map_eq_ok hread
      obtain ⟨hmembers, rfl⟩ := decodeMembers_object_eq_ok_iff.mp hvalues
      -- The values stand in the order of the members, so they are permuted with them.
      obtain ⟨values', hmembers', hperm'⟩ := List.perm_comp_forall₂ hperm hmembers
      have hnames : values.map (fun v => some v.1) = members.map (·.1) :=
        List.map_eq_of_forall₂ hmembers fun _ _ hvalue => hvalue.1.symm
      have hnodup' : (values.map (·.1)).Nodup := by
        rw [← hnames] at hnodup
        exact .of_map some (by rwa [List.map_map])
      have hread' : decodeMembers decode (.object members' none) = .ok values' :=
        decodeMembers_object_eq_ok_iff.mpr ⟨hmembers', rfl⟩
      simp only [hread', hf hnodup' hperm'.symm]
      rfl

/-! ## Records -/

/-- A member of an object that is read as a record, before and after its value is edited. -/
def MemberEdited (edited : String → Tree → Tree → Prop) (m m' : Option String × Tree) : Prop :=
  ∃ name, m.1 = some name ∧ m'.1 = some name ∧ edited name m.2 m'.2

/-- The items of an array in which the fields of a record stand in their order, before and after
    they are edited. -/
inductive PositionsEdited : List (Tree → Tree → Prop) → List Tree → List Tree → Prop where
  | nil {edits : List (Tree → Tree → Prop)} : PositionsEdited edits [] []
  | cons {edited : Tree → Tree → Prop} {edits : List (Tree → Tree → Prop)} {t t' : Tree}
    {items items' : List Tree} (ht : edited t t') (h : PositionsEdited edits items items') :
    PositionsEdited (edited :: edits) (t :: items) (t' :: items')

/-- Edits of a tree that is read as a record, where `edited` says which edits the value of each
    field allows. -/
inductive Record.Edited (r : Record α) (edited : String → Tree → Tree → Prop) :
    Tree → Tree → Prop where
  | same (t : Tree) : Edited r edited t t
  /-- The members may come in any order, with members among them that no field has the name of. -/
  | object {members kept extra members' : List (Option String × Tree)} {fault : Option Break}
    (hkept : List.Forall₂ (MemberEdited edited) members kept)
    (hextra : ∀ m ∈ extra, ∃ name, m.1 = some name ∧ ∀ f ∈ r.fields, f.name ≠ name)
    (hmembers : members'.Perm (kept ++ extra)) :
    Edited r edited (.object members fault) (.object members' fault)
  | array {items items' : List Tree} {fault : Option Break}
    (h : PositionsEdited (r.fields.map fun f => edited f.name) items items') :
    Edited r edited (.array items fault) (.array items' fault)

namespace Record

variable {r : Record α} {edited : String → Tree → Tree → Prop}

/-- No edit makes or removes a `null`. -/
theorem Edited.null_iff {t t' : Tree} (h : r.Edited edited t t') : t = .null ↔ t' = .null := by
  cases h with
  | same => exact Iff.rfl
  | object | array => exact ⟨nofun, nofun⟩

/-! ### The order of members -/

/-- Two states agree if the records are equal and the same names were seen, in whatever order. -/
def Agree (p q : List String × α) : Prop := p.1.Perm q.1 ∧ p.2 = q.2

theorem Agree.trans {p q t : List String × α} (h : Agree p q) (h' : Agree q t) : Agree p t :=
  ⟨h.1.trans h'.1, h.2.trans h'.2⟩

/-- A step from a state that agrees leads to one that agrees. -/
theorem Step.agree {m : Option String × Tree} {p p' q : List String × α} (h : r.Step m p q)
    (hp : Agree p p') : ∃ q', r.Step m p' q' ∧ Agree q q' := by
  obtain ⟨seen', x'⟩ := p'
  cases h with
  | skip hname hvalue => exact ⟨_, .skip hname hvalue, hp⟩
  | set hf hseen hread =>
    obtain ⟨hperm, rfl⟩ := hp
    exact ⟨_, .set hf (mt hperm.mem_iff.mpr hseen) hread, hperm.cons _, rfl⟩

/-- So does a run. -/
theorem Run.agree {members : List (Option String × Tree)} {p p' q : List String × α}
    (h : r.Run members p q) (hp : Agree p p') : ∃ q', r.Run members p' q' ∧ Agree q q' := by
  induction h generalizing p' with
  | nil p => exact ⟨p', .nil p', hp⟩
  | cons hstep _ ih =>
    obtain ⟨u, hstep', hu⟩ := hstep.agree hp
    obtain ⟨q', hrest, hq⟩ := ih hu
    exact ⟨q', .cons hstep' hrest, hq⟩

/-- Neighbours can be exchanged. -/
theorem Step.swap (hr : r.IsIndependent) {a b : Option String × Tree} {p q t : List String × α}
    (ha : r.Step a p q) (hb : r.Step b q t) :
    ∃ u t', r.Step b p u ∧ r.Step a u t' ∧ Agree t t' := by
  -- A skipped member leaves everything as it is; two fields have different names, as none is set
  -- twice.
  cases ha with
  | skip hname hvalue => exact ⟨t, t, hb, .skip hname hvalue, .refl _, rfl⟩
  | @set f value set seen x hf hseen hread =>
    cases hb with
    | skip hname hvalue =>
      exact ⟨_, _, .skip hname hvalue, .set hf hseen hread, .refl _, rfl⟩
    | @set g value' set' _ _ hg hseen' hread' =>
      obtain ⟨hne, hg'⟩ : g.name ≠ f.name ∧ g.name ∉ seen := by simpa using hseen'
      have hfg : g ≠ f := fun heq => hne (heq ▸ rfl)
      have hcommutes : g.Commutes f := hr.commutes.forall hg hf hfg
      have hf' : f.name ∉ g.name :: seen := by simpa using ⟨Ne.symm hne, hseen⟩
      exact ⟨_, _, .set hg hg' hread', .set hf hf' hread, .swap _ _ _,
        hcommutes _ _ _ _ hread' hread x⟩

/-- A run over members in any other order leads to the same record. -/
theorem Run.perm (hr : r.IsIndependent) {members members' : List (Option String × Tree)}
    (h : members.Perm members') {p q : List String × α} (hrun : r.Run members p q) :
    ∃ q', r.Run members' p q' ∧ Agree q q' := by
  -- Induction on how the members are permuted: only the exchange of two neighbours has something
  -- to show.
  induction h generalizing p q with
  | nil => exact ⟨q, hrun, .refl _, rfl⟩
  | cons m _ ih =>
    cases hrun with
    | cons hstep hrest =>
      obtain ⟨q', hrest', hq⟩ := ih hrest
      exact ⟨q', .cons hstep hrest', hq⟩
  | swap a b l =>
    cases hrun with
    | cons hb hrun =>
      cases hrun with
      | cons ha hrest =>
        obtain ⟨u, t', ha', hb', hagree⟩ := hb.swap hr ha
        obtain ⟨q', hrest', hq⟩ := hrest.agree hagree
        exact ⟨q', .cons ha' (.cons hb' hrest'), hq⟩
  | trans _ _ ih ih' =>
    obtain ⟨u, hrun', hu⟩ := ih hrun
    obtain ⟨q', hrun'', hq⟩ := ih' hrun'
    exact ⟨q', hrun'', hu.trans hq⟩

/-! ### Members that no field has the name of, and edited values -/

/-- Two runs after each other. -/
theorem Run.append {members members' : List (Option String × Tree)} {p q t : List String × α}
    (h : r.Run members p q) (h' : r.Run members' q t) : r.Run (members ++ members') p t := by
  induction h with
  | nil => exact h'
  | cons hstep _ ih => exact .cons hstep (ih h')

/-- Members that no field has the name of are skipped. -/
private theorem run_extra {extra : List (Option String × Tree)}
    (hextra : ∀ m ∈ extra, ∃ name, m.1 = some name ∧ ∀ f ∈ r.fields, f.name ≠ name)
    (hwhole : ∀ m ∈ extra, m.2.IsWhole) (p : List String × α) : r.Run extra p p := by
  induction extra with
  | nil => exact .nil p
  | cons m rest ih =>
    obtain ⟨_, value⟩ := m
    obtain ⟨⟨name, rfl, hname⟩, hrest⟩ := List.forall_mem_cons.mp hextra
    obtain ⟨hvalue, hwhole⟩ := List.forall_mem_cons.mp hwhole
    exact .cons (.skip hname hvalue) (ih hrest hwhole)

variable (hfields : ∀ f ∈ r.fields, Stable f.read (edited f.name))

include hfields

/-- Edited values are read as before. -/
theorem Run.values {members kept : List (Option String × Tree)} {p q : List String × α}
    (h : r.Run members p q) (hkept : List.Forall₂ (MemberEdited edited) members kept)
    (hwhole : ∀ m ∈ kept, m.2.IsWhole) : r.Run kept p q := by
  induction h generalizing kept with
  | nil p =>
    cases hkept
    exact .nil p
  | cons hstep _ ih =>
    cases hkept with
    | @cons _ m' _ kept hm hkept =>
      obtain ⟨hvalue, hwhole⟩ := List.forall_mem_cons.mp hwhole
      refine .cons ?_ (ih hkept hwhole)
      obtain ⟨_, value'⟩ := m'
      obtain ⟨name, hname, rfl, hedited⟩ := hm
      -- The name is the same, so an unknown member stays one and a field is read once more.
      cases hstep with
      | skip hunknown _ =>
        obtain rfl := Option.some.inj hname
        exact .skip hunknown hvalue
      | set hf hseen hread =>
        obtain rfl := Option.some.inj hname
        exact .set hf hseen ((hfields _ hf).decode_eq hedited hvalue hread)

/-- The values of members that are read are whole. -/
theorem Run.isWhole {members : List (Option String × Tree)} {p q : List String × α}
    (h : r.Run members p q) : ∀ m ∈ members, m.2.IsWhole := by
  induction h with
  | nil => nofun
  | cons hstep _ ih =>
    refine List.forall_mem_cons.mpr ⟨?_, ih⟩
    cases hstep with
    | skip _ hvalue => exact hvalue
    | set hf _ hread => exact (hfields _ hf).isWhole hread

/-- An edited object is read as before. -/
private theorem decode_edited_object (hr : r.IsIndependent)
    {members kept extra members' : List (Option String × Tree)} {fault : Option Break} {y : α}
    (hkept : List.Forall₂ (MemberEdited edited) members kept)
    (hextra : ∀ m ∈ extra, ∃ name, m.1 = some name ∧ ∀ f ∈ r.fields, f.name ≠ name)
    (hmembers : members'.Perm (kept ++ extra)) (hwhole : ∀ m ∈ members', m.2.IsWhole)
    (hread : r.decode (.object members fault) = .ok y) :
    r.decode (.object members' fault) = .ok y := by
  rw [decode_object_eq_ok_iff hr.nodup] at hread ⊢
  obtain ⟨hfault, seen, hrun, hrequired⟩ := hread
  -- First the values are edited, then the extra members join, and last the order changes.
  have hparts : ∀ m ∈ kept ++ extra, m.2.IsWhole := fun m hm => hwhole m (hmembers.mem_iff.mpr hm)
  obtain ⟨hkeptWhole, hextraWhole⟩ := List.forall_mem_append.mp hparts
  have hrunKept : r.Run kept ([], r.start) (seen, y) := hrun.values hfields hkept hkeptWhole
  have hrunAll : r.Run (kept ++ extra) ([], r.start) (seen, y) :=
    hrunKept.append (run_extra hextra hextraWhole _)
  obtain ⟨⟨seen', y'⟩, hrun', hseen, rfl⟩ := hrunAll.perm hr hmembers.symm
  exact ⟨hfault, seen', hrun', fun f hf hreq => hseen.mem_iff.mp (hrequired f hf hreq)⟩

/-- An edited array is read as before. -/
private theorem readItems_edited {fields : List (RecordField α)} (hsub : ∀ f ∈ fields, f ∈ r.fields)
    {fault : Option Break} {items items' : List Tree} {x y : α}
    (hedited : PositionsEdited (fields.map fun f => edited f.name) items items')
    (hwhole : ∀ t ∈ items', t.IsWhole) (hread : r.readItems fault fields items x = .ok y) :
    r.readItems fault fields items' x = .ok y := by
  induction fields generalizing items items' x with
  | nil =>
    cases hedited
    exact hread
  | cons f fields ih =>
    obtain ⟨hf, hsub⟩ := List.forall_mem_cons.mp hsub
    cases hedited with
    | nil => exact hread
    | cons ht hrest =>
      -- The item of the first field is edited as this field allows.
      obtain ⟨hitem, hwhole⟩ := List.forall_mem_cons.mp hwhole
      obtain ⟨set, hset, hread⟩ := readItems_cons_eq_ok_iff.mp hread
      exact readItems_cons_eq_ok_iff.mpr
        ⟨set, (hfields f hf).decode_eq ht hitem hset, ih hsub hrest hwhole hread⟩

/-- There is no fault in the items that were read, nor behind them. -/
private theorem isWhole_of_readItems {fields : List (RecordField α)}
    (hsub : ∀ f ∈ fields, f ∈ r.fields) {fault : Option Break} {items : List Tree} {x y : α}
    (hread : r.readItems fault fields items x = .ok y) :
    (∀ t ∈ items, t.IsWhole) ∧ fault = none := by
  induction fields generalizing items x with
  | nil =>
    -- Items that no field is left for are not passed over.
    cases items with
    | nil => exact ⟨nofun, readItems_nil hread⟩
    | cons => cases hread
  | cons f fields ih =>
    obtain ⟨hf, hsub⟩ := List.forall_mem_cons.mp hsub
    cases items with
    | nil => exact ⟨nofun, readItems_nil hread⟩
    | cons item items =>
      obtain ⟨set, hset, hread⟩ := readItems_cons_eq_ok_iff.mp hread
      obtain ⟨hitems, hfault⟩ := ih hsub hread
      exact ⟨List.forall_mem_cons.mpr ⟨(hfields f hf).isWhole hset, hitems⟩, hfault⟩

omit hfields in
/-- A record is stable under the edits that its fields allow. -/
theorem stable (hr : r.IsIndependent)
    (h : r.fields.Forall fun f => Stable f.read (edited f.name)) :
    Stable r.decode (r.Edited edited) where
  isWhole {t y} hread := by
    have hfields := List.forall_iff_forall_mem.mp h
    cases t with
    | array items fault =>
      exact Tree.isWhole_array_iff.mpr (isWhole_of_readItems hfields (fun _ hf => hf) hread)
    | object members fault =>
      obtain ⟨hfault, seen, hrun, -⟩ := (decode_object_eq_ok_iff hr.nodup).mp hread
      exact Tree.isWhole_object_iff.mpr ⟨hrun.isWhole hfields, hfault⟩
    | _ => cases hread
  decode_eq {t t' y} hedited hwhole hread := by
    have hfields := List.forall_iff_forall_mem.mp h
    cases hedited with
    | same => exact hread
    | object hkept hextra hmembers =>
      exact decode_edited_object hfields hr hkept hextra hmembers
        (Tree.isWhole_object_iff.mp hwhole).1 hread
    | array hitems =>
      exact readItems_edited hfields (fun _ hf => hf) hitems (Tree.isWhole_array_iff.mp hwhole).1
        hread

end Record

end ContainerAudit.Json
