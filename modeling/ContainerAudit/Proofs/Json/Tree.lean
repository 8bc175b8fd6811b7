import ContainerAudit.Json.Tree
import ContainerAudit.Proofs.List
import ContainerAudit.Proofs.Json.Token

/-!
# The text of a tree

`Tree.tokens` lists the tokens of a tree, and `IsText` says that bytes are a text of a tree: the
grammar of JSON holds in the tree, and the bytes spell its tokens.

Reading keeps open arrays and objects on a stack.  A value is read alike on every stack, so
completeness follows the tree, and soundness peels one value at a time off the tokens.

## Key results

- `grow_tokens`: the tokens of a tree are read as that tree
- `eq_tokens_of_grow`: what is read as a tree without a fault are its tokens
- `isText_iff`: the texts of a tree are those that are parsed as it
-/

namespace ContainerAudit.Json

open Text (Bytes)

/-! ## Trees in which the grammar holds -/

/-- Induction over trees, with the parts of an array or object by membership. -/
@[elab_as_elim, induction_eliminator]
theorem Tree.induct {P : Tree → Prop} (null : P .null) (boolean : ∀ value, P (.boolean value))
    (number : ∀ numeral, P (.number numeral)) (text : ∀ content, P (.text content))
    (array : ∀ items fault, (∀ item ∈ items, P item) → P (.array items fault))
    (object : ∀ members fault, (∀ m ∈ members, P m.2) → P (.object members fault))
    (broken : ∀ fault, P (.broken fault)) (t : Tree) : P t :=
  @Tree.rec P (fun items => ∀ item ∈ items, P item) (fun members => ∀ m ∈ members, P m.2)
    (fun m => P m.2) null boolean number text array object broken
    nofun (fun _ _ hitem hitems => List.forall_mem_cons.mpr ⟨hitem, hitems⟩)
    nofun (fun _ _ hm hmembers => List.forall_mem_cons.mpr ⟨hm, hmembers⟩)
    (fun _ _ hvalue => hvalue) t

/-- Whether the grammar of JSON holds in a tree. -/
def Tree.IsWhole (t : Tree) : Prop := t.skip = .ok ()

/-- Items can be skipped exactly if each of them can. -/
private theorem skipItems_eq_ok_iff {items : List Tree} :
    skipItems items = .ok () ↔ ∀ item ∈ items, item.IsWhole := by
  induction items with
  | nil => simp [skipItems]
  | cons item rest ih =>
    rw [List.forall_mem_cons, ← ih, Tree.IsWhole, skipItems]
    cases item.skip <;> simp [bind, Except.bind]

/-- Members can be skipped exactly if each of their values can. -/
private theorem skipMembers_eq_ok_iff {members : List (Option String × Tree)} :
    skipMembers members = .ok () ↔ ∀ m ∈ members, m.2.IsWhole := by
  induction members with
  | nil => simp [skipMembers]
  | cons m rest ih =>
    rw [List.forall_mem_cons, ← ih, Tree.IsWhole, skipMembers]
    cases m.2.skip <;> simp [bind, Except.bind]

namespace Tree

theorem isWhole_null : IsWhole .null := rfl

theorem isWhole_boolean (value : Bool) : IsWhole (.boolean value) := rfl

theorem isWhole_number (numeral : Numeral) : IsWhole (.number numeral) := rfl

theorem isWhole_text (content : Option String) : IsWhole (.text content) := rfl

/-- There is no fault in an array exactly if there is none in its items nor behind them. -/
theorem isWhole_array_iff {items : List Tree} {fault : Option Break} :
    IsWhole (.array items fault) ↔ (∀ item ∈ items, item.IsWhole) ∧ fault = none := by
  rw [← skipItems_eq_ok_iff, IsWhole, skip]
  cases skipItems items <;> cases fault <;> simp [bind, Except.bind]

/-- There is none in an object exactly if there is none in its members nor behind them. -/
theorem isWhole_object_iff {members : List (Option String × Tree)} {fault : Option Break} :
    IsWhole (.object members fault) ↔ (∀ m ∈ members, m.2.IsWhole) ∧ fault = none := by
  rw [← skipMembers_eq_ok_iff, IsWhole, skip]
  cases skipMembers members <;> cases fault <;> simp [bind, Except.bind]

private theorem not_isWhole_broken (fault : Break) : ¬IsWhole (.broken fault) := nofun

end Tree

/-! ## The tokens of a tree -/

mutual

/-- The tokens of a tree in which the grammar holds. -/
def Tree.tokens : Tree → List Token
  | .null => [.null]
  | .boolean value => [.boolean value]
  | .number numeral => [.number numeral]
  | .text content => [.text content]
  | .array items _ => .openArray :: [.comma].intercalate (itemTokens items) ++ [.closeArray]
  | .object members _ =>
    .openObject :: [.comma].intercalate (memberTokens members) ++ [.closeObject]
  | .broken _ => []

/-- The tokens of each item of an array. -/
def itemTokens : List Tree → List (List Token)
  | [] => []
  | item :: rest => item.tokens :: itemTokens rest

/-- The tokens of each member of an object. -/
def memberTokens : List (Option String × Tree) → List (List Token)
  | [] => []
  | (name, value) :: rest => (.text name :: .colon :: value.tokens) :: memberTokens rest

end

/-- The bytes are a text of the tree: the grammar of JSON holds in it, and they spell its tokens. -/
def IsText (t : Tree) (bytes : Bytes) : Prop := t.IsWhole ∧ Spelled t.tokens bytes

/-- The tokens of items, item by item. -/
theorem itemTokens_eq_map (items : List Tree) : itemTokens items = items.map Tree.tokens := by
  induction items with
  | nil => rfl
  | cons item rest ih => rw [itemTokens, ih, List.map_cons]

/-- The tokens of members, each with its name and a colon. -/
theorem memberTokens_eq_map (members : List (Option String × Tree)) :
    memberTokens members = members.map fun m => .text m.1 :: .colon :: m.2.tokens := by
  induction members with
  | nil => rfl
  | cons m rest ih => rw [memberTokens, ih, List.map_cons]

/-- Tokens that join pieces without faults have no fault. -/
private theorem isFault_of_mem_intercalate {pieces : List (List Token)} {token : Token}
    (hpieces : ∀ piece ∈ pieces, ∀ t ∈ piece, t.isFault = false)
    (h : token ∈ [Token.comma].intercalate pieces) : token.isFault = false := by
  rcases List.mem_of_mem_intercalate h with h | ⟨piece, hpiece, h⟩
  · obtain rfl := List.mem_singleton.mp h
    rfl
  · exact hpieces piece hpiece token h

/-- No token of a tree is a fault. -/
private theorem Tree.isFault_of_mem_tokens {t : Tree} :
    ∀ token ∈ t.tokens, token.isFault = false := by
  induction t with
  | null | boolean | number | text => exact List.forall_mem_singleton.mpr rfl
  | array items fault ih =>
    have hitems : ∀ piece ∈ itemTokens items, ∀ token ∈ piece, token.isFault = false := by
      rw [itemTokens_eq_map, List.forall_mem_map]
      exact ih
    rw [tokens, List.cons_append, List.forall_mem_cons, List.forall_mem_append]
    exact ⟨rfl, fun _ => isFault_of_mem_intercalate hitems, List.forall_mem_singleton.mpr rfl⟩
  | object members fault ih =>
    -- In front of its value a member has a name and a colon.
    have hmembers : ∀ piece ∈ memberTokens members, ∀ token ∈ piece, token.isFault = false := by
      rw [memberTokens_eq_map, List.forall_mem_map]
      intro m hm
      exact List.forall_mem_cons.mpr ⟨rfl, List.forall_mem_cons.mpr ⟨rfl, ih m hm⟩⟩
    rw [tokens, List.cons_append, List.forall_mem_cons, List.forall_mem_append]
    exact ⟨rfl, fun _ => isFault_of_mem_intercalate hmembers, List.forall_mem_singleton.mpr rfl⟩
  | broken fault => nofun

/-! ## The tokens of a tree are read as that tree -/

/-- What is read once a value is complete. -/
def finish (tree : Tree) (stack : List Frame) (rest : List Token) : Tree × List Token :=
  match complete tree stack with
  | none => (tree, rest)
  | some stack => grow stack .commaOrEnd rest

/-- A token leads to the next state, to the end of the tree or to a fault. -/
private theorem grow_cons (stack : List Frame) (expected : Expected) (token : Token)
    (rest : List Token) :
    grow stack expected (token :: rest) =
      match stepTree stack expected token with
      | .next stack expected => grow stack expected rest
      | .fault fault => (abandon stack expected fault, [])
      | .value tree stack => finish tree stack rest := by
  rw [grow]
  rfl

/-- No value begins with a closing bracket, so the first item of an array is read like any other. -/
private theorem grow_firstItem {item : Tree} (h : item.IsWhole) (more : List Tree)
    (stack : List Frame) (rest : List Token) :
    grow (.array [] :: stack) .itemOrEnd
        ([.comma].intercalate (itemTokens (item :: more)) ++ rest) =
      grow (.array [] :: stack) .value
        ([.comma].intercalate (itemTokens (item :: more)) ++ rest) := by
  cases item with
  | broken fault => exact absurd h (Tree.not_isWhole_broken fault)
  | _ => cases more <;> rfl

/-- The remaining items of an array and its end, where each item is read as itself. -/
private theorem grow_items {items : List Tree} (hne : items ≠ [])
    (hitems : ∀ item ∈ items, ∀ stack rest,
      grow stack .value (item.tokens ++ rest) = finish item stack rest)
    (done : List Tree) (stack : List Frame) (rest : List Token) :
    grow (.array done :: stack) .value
        ([.comma].intercalate (itemTokens items) ++ .closeArray :: rest) =
      finish (.array (done.reverse ++ items) none) stack rest := by
  induction items generalizing done with
  | nil => exact absurd rfl hne
  | cons item more ih =>
    obtain ⟨hitem, hmore⟩ := List.forall_mem_cons.mp hitems
    have hdone : done.reverse ++ item :: more = (item :: done).reverse ++ more := by simp
    rw [hdone]
    -- Behind the item stands the end of the array, or a comma and the other items.
    cases more with
    | nil =>
      have hend : grow (.array (item :: done) :: stack) .commaOrEnd (.closeArray :: rest) =
          finish (.array (item :: done).reverse none) stack rest := grow_cons ..
      rw [itemTokens, itemTokens, List.intercalate_singleton, hitem, List.append_nil, ← hend]
      rfl
    | cons next more =>
      have hcomma (after : List Token) :
          grow (.array (item :: done) :: stack) .commaOrEnd (.comma :: after) =
            grow (.array (item :: done) :: stack) .value after := grow_cons ..
      rw [itemTokens, itemTokens, List.intercalate_cons_cons, ← itemTokens, List.append_assoc,
        List.append_assoc, hitem, ← ih (List.cons_ne_nil _ _) hmore, ← hcomma]
      rfl

/-- The remaining members of an object and its end, where each value is read as itself. -/
private theorem grow_members {members : List (Option String × Tree)} (hne : members ≠ [])
    (hmembers : ∀ m ∈ members, ∀ stack rest,
      grow stack .value (m.2.tokens ++ rest) = finish m.2 stack rest)
    (done : List (Option String × Tree)) (stack : List Frame) (rest : List Token) :
    grow (.object done :: stack) .name
        ([.comma].intercalate (memberTokens members) ++ .closeObject :: rest) =
      finish (.object (done.reverse ++ members) none) stack rest := by
  induction members generalizing done with
  | nil => exact absurd rfl hne
  | cons m more ih =>
    obtain ⟨hm, hmore⟩ := List.forall_mem_cons.mp hmembers
    obtain ⟨name, value⟩ := m
    have hname (after : List Token) :
        grow (.object done :: stack) .name (.text name :: .colon :: after) =
          grow (.member done name :: stack) .value after := by
      rw [grow_cons]
      exact grow_cons ..
    have hdone : done.reverse ++ (name, value) :: more =
        ((name, value) :: done).reverse ++ more := by simp
    rw [hdone]
    -- The member is complete; behind it comes the end of the object, or a comma and a name.
    cases more with
    | nil =>
      have hend : grow (.object ((name, value) :: done) :: stack) .commaOrEnd
            (.closeObject :: rest) =
          finish (.object ((name, value) :: done).reverse none) stack rest := grow_cons ..
      rw [memberTokens, memberTokens, List.intercalate_singleton, List.cons_append,
        List.cons_append, hname, hm, List.append_nil, ← hend]
      rfl
    | cons next more =>
      have hcomma (after : List Token) :
          grow (.object ((name, value) :: done) :: stack) .commaOrEnd (.comma :: after) =
            grow (.object ((name, value) :: done) :: stack) .name after := grow_cons ..
      rw [memberTokens, memberTokens, List.intercalate_cons_cons, ← memberTokens, List.append_assoc,
        List.append_assoc, List.cons_append, List.cons_append, hname, hm,
        ← ih (List.cons_ne_nil _ _) hmore, ← hcomma]
      rfl

/-- The tokens of a tree are read as that tree, whatever is open and whatever follows. -/
theorem grow_tokens {t : Tree} (h : t.IsWhole) (stack : List Frame) (rest : List Token) :
    grow stack .value (t.tokens ++ rest) = finish t stack rest := by
  induction t generalizing stack rest with
  | null | boolean | number | text => exact grow_cons ..
  | array items fault ih =>
    obtain ⟨hitems, rfl⟩ := Tree.isWhole_array_iff.mp h
    have hopen (after : List Token) : grow stack .value (.openArray :: after) =
        grow (.array [] :: stack) .itemOrEnd after := grow_cons ..
    rw [Tree.tokens, List.cons_append, List.cons_append, List.append_assoc, hopen,
      List.singleton_append]
    cases items with
    | nil => exact grow_cons ..
    | cons item more =>
      rw [grow_firstItem (hitems item List.mem_cons_self)]
      exact grow_items (List.cons_ne_nil _ _) (fun item hitem => ih item hitem (hitems item hitem))
        [] stack rest
  | object members fault ih =>
    obtain ⟨hmembers, rfl⟩ := Tree.isWhole_object_iff.mp h
    have hopen (after : List Token) : grow stack .value (.openObject :: after) =
        grow (.object [] :: stack) .nameOrEnd after := grow_cons ..
    rw [Tree.tokens, List.cons_append, List.cons_append, List.append_assoc, hopen,
      List.singleton_append]
    cases members with
    | nil => exact grow_cons ..
    | cons m more =>
      -- The first name is read like any other.
      have hfirst : grow (.object [] :: stack) .nameOrEnd
            ([.comma].intercalate (memberTokens (m :: more)) ++ .closeObject :: rest) =
          grow (.object [] :: stack) .name
            ([.comma].intercalate (memberTokens (m :: more)) ++ .closeObject :: rest) := by
        cases more <;> rfl
      rw [hfirst]
      exact grow_members (List.cons_ne_nil _ _) (fun m hm => ih m hm (hmembers m hm)) [] stack rest
  | broken fault => exact absurd h (Tree.not_isWhole_broken fault)

/-! ## What is read as a tree are its tokens -/

/-- Whether a value may stand next in an open frame. -/
def Frame.takesValue : Frame → Bool
  | .array _ | .member _ _ => true
  | .object _ => false

/-- A fault in a value stays one in whatever is open around it. -/
private theorem not_isWhole_enclose {stack : List Frame} (hstack : ∀ f ∈ stack, f.takesValue = true)
    {t : Tree} (h : ¬t.IsWhole) : ¬(enclose stack t).IsWhole := by
  -- Induction on what is open, from the innermost frame on.
  induction stack generalizing t with
  | nil => exact h
  | cons frame stack ih =>
    obtain ⟨hframe, hbelow⟩ := List.forall_mem_cons.mp hstack
    cases frame with
    | array items =>
      refine ih hbelow fun hwhole => h ?_
      exact (Tree.isWhole_array_iff.mp hwhole).1 t (by simp)
    | object members => cases hframe
    | member members name =>
      refine ih hbelow fun hwhole => h ?_
      exact (Tree.isWhole_object_iff.mp hwhole).1 (name, t) (by simp)

/-- Where a value or the end of an array may stand, a fault leaves a tree with a fault. -/
private theorem not_isWhole_abandon {stack : List Frame} (hstack : ∀ f ∈ stack, f.takesValue = true)
    (expected : Expected) (fault : Break) : ¬(abandon stack expected fault).IsWhole := by
  have hbroken : ¬(enclose stack (.broken fault)).IsWhole :=
    not_isWhole_enclose hstack (Tree.not_isWhole_broken fault)
  cases stack with
  | nil => cases expected <;> exact hbroken
  | cons frame stack =>
    obtain ⟨hframe, hbelow⟩ := List.forall_mem_cons.mp hstack
    cases frame with
    | array items =>
      -- Behind an item the fault is that of the array, and before one it is the item's.
      have hend : ¬(Tree.array items.reverse (some fault)).IsWhole := by
        simp [Tree.isWhole_array_iff]
      cases expected with
      | commaOrEnd => exact not_isWhole_enclose hbelow hend
      | _ => exact hbroken
    | object members => cases hframe
    | member members name => cases expected <;> exact hbroken

/-- Where a member or the end of an object may stand, a fault leaves a tree with a fault. -/
private theorem not_isWhole_abandon_object {stack : List Frame}
    (hstack : ∀ f ∈ stack, f.takesValue = true) (members : List (Option String × Tree))
    {expected : Expected}
    (hexpected : expected = .nameOrEnd ∨ expected = .name ∨ expected = .commaOrEnd)
    (fault : Break) : ¬(abandon (.object members :: stack) expected fault).IsWhole := by
  have hend : ¬(Tree.object members.reverse (some fault)).IsWhole := by
    simp [Tree.isWhole_object_iff]
  rcases hexpected with rfl | rfl | rfl <;> exact not_isWhole_enclose hstack hend

/-- Where a fault would show, a tree without one comes from a token that is allowed there. -/
private theorem exists_token_of_grow {stack : List Frame} {expected : Expected} {ts : List Token}
    (hfault : ∀ fault, ¬(abandon stack expected fault).IsWhole)
    (hwhole : (grow stack expected ts).1.IsWhole) :
    ∃ token rest, ts = token :: rest ∧ ∀ fault, stepTree stack expected token ≠ .fault fault := by
  cases ts with
  | nil => exact absurd hwhole (hfault _)
  | cons token rest =>
    refine ⟨token, rest, rfl, fun fault hstep => hfault fault ?_⟩
    rw [grow_cons, hstep] at hwhole
    exact hwhole

/-- Tokens of a length up to `n` that are read as a value without a fault begin with its tokens. -/
def PeelsValue (n : Nat) : Prop :=
  ∀ (stack : List Frame) (ts : List Token), ts.length ≤ n →
    (∀ f ∈ stack, f.takesValue = true) → (grow stack .value ts).1.IsWhole →
      ∃ t rest, t.IsWhole ∧ ts = Tree.tokens t ++ rest

/-- What is read as items and the end of an array. -/
private theorem exists_items_of_grow {n : Nat} (hvalue : PeelsValue n) {stack : List Frame}
    (hstack : ∀ f ∈ stack, f.takesValue = true) {done : List Tree} {ts : List Token}
    (hlength : ts.length ≤ n) (hwhole : (grow (.array done :: stack) .value ts).1.IsWhole) :
    ∃ items rest, items ≠ [] ∧ (∀ item ∈ items, item.IsWhole) ∧
      ts = [.comma].intercalate (itemTokens items) ++ .closeArray :: rest := by
  have hopen (items : List Tree) : ∀ f ∈ Frame.array items :: stack, f.takesValue = true :=
    List.forall_mem_cons.mpr ⟨rfl, hstack⟩
  -- One item is peeled off at a time.  What is left is shorter, so the induction is on the length.
  induction hn : ts.length using Nat.strong_induction_on generalizing done ts with
  | _ length ih =>
    subst hn
    obtain ⟨item, after, hitem, rfl⟩ := hvalue _ ts hlength (hopen done) hwhole
    rw [grow_tokens hitem] at hwhole
    have hafter : (grow (.array (item :: done) :: stack) .commaOrEnd after).1.IsWhole := hwhole
    obtain ⟨token, after, rfl, hstep⟩ :=
      exists_token_of_grow (not_isWhole_abandon (hopen _) _) hafter
    cases token with
    | closeArray =>
      exact ⟨[item], after, List.cons_ne_nil _ _, by simpa using hitem, by simp [itemTokens]⟩
    | comma =>
      have hshorter : after.length < (item.tokens ++ .comma :: after).length := by
        rw [List.length_append, List.length_cons]
        omega
      obtain ⟨items, rest, hne, hitems, rfl⟩ :=
        ih _ hshorter (hshorter.le.trans hlength) hafter rfl
      obtain ⟨next, more, rfl⟩ := List.exists_cons_of_ne_nil hne
      exact ⟨item :: next :: more, rest, List.cons_ne_nil _ _,
        List.forall_mem_cons.mpr ⟨hitem, hitems⟩, by simp [itemTokens]⟩
    | _ => exact (hstep _ rfl).elim

/-- What is read as a member begins with its tokens, and the rest is read behind it. -/
private theorem exists_member_of_grow {n : Nat} (hvalue : PeelsValue n) {stack : List Frame}
    (hstack : ∀ f ∈ stack, f.takesValue = true) {done : List (Option String × Tree)}
    {ts : List Token} (hlength : ts.length ≤ n)
    (hwhole : (grow (.object done :: stack) .name ts).1.IsWhole) :
    ∃ name value after, value.IsWhole ∧ ts = .text name :: .colon :: (value.tokens ++ after) ∧
      (grow (.object ((name, value) :: done) :: stack) .commaOrEnd after).1.IsWhole := by
  -- Token by token, anything but a name, a colon and a value leaves a fault behind.
  obtain ⟨token, after, rfl, hstep⟩ :=
    exists_token_of_grow (not_isWhole_abandon_object hstack _ (.inr (.inl rfl))) hwhole
  cases token with
  | text name =>
    have hmember : ∀ f ∈ Frame.member done name :: stack, f.takesValue = true :=
      List.forall_mem_cons.mpr ⟨rfl, hstack⟩
    have hcolon : (grow (.member done name :: stack) .colon after).1.IsWhole := hwhole
    obtain ⟨token, after, rfl, hstep⟩ :=
      exists_token_of_grow (not_isWhole_abandon hmember _) hcolon
    cases token with
    | colon =>
      have hcontent : (grow (.member done name :: stack) .value after).1.IsWhole := hcolon
      simp only [List.length_cons] at hlength
      obtain ⟨value, after, hwholeValue, rfl⟩ := hvalue _ after (by omega) hmember hcontent
      rw [grow_tokens hwholeValue] at hcontent
      exact ⟨name, value, after, hwholeValue, rfl, hcontent⟩
    | _ => exact (hstep _ rfl).elim
  | _ => exact (hstep _ rfl).elim

/-- What is read as members and the end of an object. -/
private theorem exists_members_of_grow {n : Nat} (hvalue : PeelsValue n) {stack : List Frame}
    (hstack : ∀ f ∈ stack, f.takesValue = true) {done : List (Option String × Tree)}
    {ts : List Token} (hlength : ts.length ≤ n)
    (hwhole : (grow (.object done :: stack) .name ts).1.IsWhole) :
    ∃ members rest, members ≠ [] ∧ (∀ m ∈ members, m.2.IsWhole) ∧
      ts = [.comma].intercalate (memberTokens members) ++ .closeObject :: rest := by
  -- The induction is on the number of tokens, of which each member takes three or more.
  induction hn : ts.length using Nat.strong_induction_on generalizing done ts with
  | _ length ih =>
    subst hn
    obtain ⟨name, value, after, hvalueWhole, rfl, hafter⟩ :=
      exists_member_of_grow hvalue hstack hlength hwhole
    obtain ⟨token, after, rfl, hstep⟩ :=
      exists_token_of_grow (not_isWhole_abandon_object hstack _ (.inr (.inr rfl))) hafter
    cases token with
    | closeObject =>
      exact ⟨[(name, value)], after, List.cons_ne_nil _ _, by simpa using hvalueWhole,
        by simp [memberTokens]⟩
    | comma =>
      have hshorter : after.length <
          (Token.text name :: .colon :: (value.tokens ++ .comma :: after)).length := by
        simp only [List.length_cons, List.length_append]
        omega
      obtain ⟨members, rest, hne, hmembers, rfl⟩ :=
        ih _ hshorter (hshorter.le.trans hlength) hafter rfl
      obtain ⟨next, more, rfl⟩ := List.exists_cons_of_ne_nil hne
      exact ⟨(name, value) :: next :: more, rest, List.cons_ne_nil _ _,
        List.forall_mem_cons.mpr ⟨hvalueWhole, hmembers⟩, by simp [memberTokens]⟩
    | _ => exact (hstep _ rfl).elim

/-- What is read as a value without a fault begins with the tokens of a tree. -/
private theorem peelsValue (n : Nat) : PeelsValue n := by
  -- The values inside an array or an object have fewer tokens, as its bracket is not one of them.
  induction n with
  | zero =>
    intro stack ts hlength hstack hwhole
    obtain ⟨token, after, rfl, -⟩ := exists_token_of_grow (not_isWhole_abandon hstack _) hwhole
    cases hlength
  | succ n ih =>
    intro stack ts hlength hstack hwhole
    obtain ⟨token, after, rfl, hstep⟩ :=
      exists_token_of_grow (not_isWhole_abandon hstack _) hwhole
    have hshorter : after.length ≤ n := by simpa using hlength
    cases token with
    | null => exact ⟨.null, after, Tree.isWhole_null, rfl⟩
    | boolean value => exact ⟨.boolean value, after, Tree.isWhole_boolean value, rfl⟩
    | number numeral => exact ⟨.number numeral, after, Tree.isWhole_number numeral, rfl⟩
    | text content => exact ⟨.text content, after, Tree.isWhole_text content, rfl⟩
    | openArray =>
      have hinside : (grow (.array [] :: stack) .itemOrEnd after).1.IsWhole := hwhole
      by_cases hempty : after.head? = some .closeArray
      · obtain ⟨rest, rfl⟩ := List.head?_eq_some_iff.mp hempty
        exact ⟨.array [] none, rest, Tree.isWhole_array_iff.mpr ⟨nofun, rfl⟩, rfl⟩
      · have hfirst : grow (.array [] :: stack) .itemOrEnd after =
            grow (.array [] :: stack) .value after := by
          cases after with
          | nil => rfl
          | cons token after =>
            cases token with
            | closeArray => exact absurd rfl hempty
            | _ => rfl
        rw [hfirst] at hinside
        obtain ⟨items, rest, -, hitems, rfl⟩ :=
          exists_items_of_grow ih hstack hshorter hinside
        exact ⟨.array items none, rest, Tree.isWhole_array_iff.mpr ⟨hitems, rfl⟩,
          by simp [Tree.tokens]⟩
    | openObject =>
      have hinside : (grow (.object [] :: stack) .nameOrEnd after).1.IsWhole := hwhole
      by_cases hempty : after.head? = some .closeObject
      · obtain ⟨rest, rfl⟩ := List.head?_eq_some_iff.mp hempty
        exact ⟨.object [] none, rest, Tree.isWhole_object_iff.mpr ⟨nofun, rfl⟩, rfl⟩
      · have hfirst : grow (.object [] :: stack) .nameOrEnd after =
            grow (.object [] :: stack) .name after := by
          cases after with
          | nil => rfl
          | cons token after =>
            cases token with
            | closeObject => exact absurd rfl hempty
            | _ => rfl
        rw [hfirst] at hinside
        obtain ⟨members, rest, -, hmembers, rfl⟩ :=
          exists_members_of_grow ih hstack hshorter hinside
        exact ⟨.object members none, rest, Tree.isWhole_object_iff.mpr ⟨hmembers, rfl⟩,
          by simp [Tree.tokens]⟩
    | _ => exact (hstep _ rfl).elim

/-- What is read as a tree without a fault are its tokens, and those that are left over. -/
theorem eq_tokens_of_grow {ts rest : List Token} {t : Tree}
    (hgrow : grow [] .value ts = (t, rest)) (hwhole : t.IsWhole) : ts = t.tokens ++ rest := by
  have hread : (grow [] .value ts).1.IsWhole := by rwa [hgrow]
  obtain ⟨t', rest', hwhole', rfl⟩ := peelsValue ts.length [] ts le_rfl nofun hread
  rw [grow_tokens hwhole'] at hgrow
  obtain ⟨rfl, rfl⟩ := Prod.mk.inj hgrow
  rfl

/-- The texts of a tree are those that are parsed as it, provided that the grammar holds in it. -/
theorem isText_iff {t : Tree} {bytes : Bytes} :
    IsText t bytes ↔ parse bytes = ⟨t, false⟩ ∧ t.IsWhole := by
  constructor
  · rintro ⟨hwhole, hspelled⟩
    have hgrow : grow [] .value (tokens bytes) = (t, []) := by
      rw [hspelled.tokens_eq.1]
      simpa [finish, complete] using grow_tokens hwhole [] []
    exact ⟨by rw [parse, hgrow]; rfl, hwhole⟩
  · -- Nothing is left over, so the tokens of the text are those of the tree.
    rintro ⟨hparse, hwhole⟩
    rw [parse, Parsed.mk.injEq, Bool.not_eq_false', List.isEmpty_iff] at hparse
    have htokens := eq_tokens_of_grow (Prod.ext hparse.1 hparse.2) hwhole
    rw [List.append_nil] at htokens
    exact ⟨hwhole, spelled_iff.mpr ⟨htokens, Tree.isFault_of_mem_tokens⟩⟩

end ContainerAudit.Json
