import CommandGate.Proofs.Json.RoundTrip

/-!
# Values That Are Read Back as They Were

Two things do not survive writing and reading: the names of an object of which one is given
twice, and the exact form of a double-precision number. A value in which neither occurs, at
any depth, is exact (`Json.Exact`) if besides its texts have no surrogates and its whole
numbers are short. Its document denotes the value itself, with the items of every array and
the members of every object in the same order.

## Main results

* `Json.Exact.parse_write`: the document of an exact value is read back as that value.
-/

namespace CommandGate

namespace Json

/-- A value is **exact** if it is made, to any depth, of `null`, truth values, short whole
numbers, texts without surrogates, arrays, and objects whose names are distinct and without
surrogates. -/
inductive Exact : Json → Prop
  | null : Exact .null
  | bool (b : Bool) : Exact (.bool b)
  | integer {n : Int} (hn : IsShort n) : Exact (.integer n)
  | string {t : Text} (ht : t.IsScalar) : Exact (.string t)
  | array {items : List Json} (hitems : ∀ v ∈ items, Exact v) : Exact (.array items)
  | object {members : List (Text × Json)} (hnames : (members.map Prod.fst).Nodup)
      (hscalar : ∀ m ∈ members, m.1.IsScalar) (hvalues : ∀ m ∈ members, Exact m.2) :
      Exact (.object members)

/-! ### What exact values hold -/

section Holds

variable {text : Text → Prop} {integer : Int → Prop}

/-- What holds of each of the items holds of them together. -/
theorem itemsHold_of_forall {items : List Json} (h : ∀ v ∈ items, v.Holds text integer) :
    ItemsHold text integer items := by
  induction items with
  | nil => trivial
  | cons v vs ih =>
      obtain ⟨hv, hvs⟩ := List.forall_mem_cons.mp h
      exact ⟨hv, ih hvs⟩

/-- What holds of each name and each value holds of the members together. -/
theorem membersHold_of_forall {members : List (Text × Json)} (hn : ∀ m ∈ members, text m.1)
    (h : ∀ m ∈ members, m.2.Holds text integer) : MembersHold text integer members := by
  induction members with
  | nil => trivial
  | cons m ms ih =>
      obtain ⟨name, v⟩ := m
      obtain ⟨hname, hnames⟩ := List.forall_mem_cons.mp hn
      obtain ⟨hv, hvs⟩ := List.forall_mem_cons.mp h
      exact ⟨⟨hname, hv⟩, ih hnames hvs⟩

/-- The texts of an exact value have no surrogates, and its whole numbers are short. -/
theorem Exact.holds {v : Json} (h : v.Exact) (ht : ∀ t, Text.IsScalar t → text t)
    (hi : ∀ n, IsShort n → integer n) : v.Holds text integer := by
  induction h with
  | null => trivial
  | bool b => trivial
  | integer hn => exact hi _ hn
  | string hs => exact ht _ hs
  | array _ ih => exact itemsHold_of_forall ih
  | object _ hscalar _ ih => exact membersHold_of_forall (fun m hm => ht _ (hscalar m hm)) ih

end Holds

/-- An exact value has no surrogates in its texts. -/
theorem Exact.isScalar {v : Json} (h : v.Exact) : v.IsScalar :=
  h.holds (fun _ ht => ht) fun _ _ => trivial

/-- An exact value has only whole numbers that can be read. -/
theorem Exact.isReadable {v : Json} (h : v.Exact) : v.IsReadable :=
  h.holds (fun _ _ => trivial) fun _ hn => hn

/-! ### Reading exact values back -/

/-- A member with a new name comes last. -/
theorem insert_of_not_mem {name : Text} {members : List (Text × Json)}
    (h : name ∉ members.map Prod.fst) (v : Json) :
    insert name v members = members ++ [(name, v)] := by
  induction members with
  | nil => rfl
  | cons m ms ih =>
      rw [List.map_cons, List.mem_cons, not_or] at h
      rw [insert, if_neg (Ne.symm h.1), ih h.2, List.cons_append]

/-- Items that are each read back as they were are read back together. -/
theorem echoItems_eq {items : List Json} (h : ∀ v ∈ items, echo v = v) :
    echoItems items = items := by
  induction items with
  | nil => rfl
  | cons v vs ih =>
      obtain ⟨hv, hvs⟩ := List.forall_mem_cons.mp h
      rw [echoItems, hv, ih hvs]

/-- Members under distinct names that are each read back as they were are read back
together, behind those before. -/
theorem echoMembers_eq {before members : List (Text × Json)}
    (hnames : ((before ++ members).map Prod.fst).Nodup) (h : ∀ m ∈ members, echo m.2 = m.2) :
    echoMembers before members = before ++ members := by
  induction members generalizing before with
  | nil => rw [echoMembers, List.append_nil]
  | cons m ms ih =>
      obtain ⟨name, v⟩ := m
      obtain ⟨hv, hvs⟩ := List.forall_mem_cons.mp h
      have hnew : name ∉ before.map Prod.fst := by
        rw [List.map_append, List.map_cons, List.nodup_append] at hnames
        exact fun hmem => hnames.2.2 _ hmem _ List.mem_cons_self rfl
      rw [echoMembers, echoMember, hv, insert_of_not_mem hnew, ih (by simpa using hnames) hvs,
        List.append_assoc, List.singleton_append]

/-- An exact value is what its document denotes. -/
theorem Exact.echo_eq {v : Json} (h : v.Exact) : echo v = v := by
  induction h with
  | null => rfl
  | bool b => rfl
  | integer hn => rfl
  | string ht => rfl
  | array _ ih => rw [echo, echoItems_eq ih]
  | object hnames _ _ ih => rw [echo, echoMembers_eq (by simpa using hnames) ih, List.nil_append]

/-- **The document of an exact value is read back as that value.** -/
theorem Exact.parse_write {v : Json} (h : v.Exact) : parse (write .line v) = .ok v := by
  rw [Json.parse_write (isScalar_write .line h.isScalar) h.isReadable, h.echo_eq]

end Json

end CommandGate
