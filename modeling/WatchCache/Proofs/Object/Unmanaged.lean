import WatchCache.Proofs.Json.Members
import WatchCache.Proofs.Json.Reading
import WatchCache.Proofs.Selector.Reading
import WatchCache.Schema.Typed

set_option autoImplicit false

/-!
# Objects without the record of who set which fields

An object keeps that record in a place of its own, and an object that was read from a text has no
second one: neither among the other members of its metadata nor under another member of its name
in the body.  So where the place is empty, the value of the object does not show the record, and
neither does any typed resource that the object is decoded as.
-/

namespace WatchCache

namespace Json

/-- The record of who set which fields, as the value of an object shows it. -/
def managedFields? (j : Json) : Option Json :=
  (j.get? "metadata").bind fun metadata => metadata.get? "managedFields"

end Json

/-! ## Objects as they are read -/

namespace Object

/-- All members that have a place of their own stand there. -/
structure Regular (o : Object) : Prop where
  metadata : ∀ m ∈ o.metadata.others, m.1 ∉ Metadata.ownMembers
  body : ∀ m ∈ o.body, m.1 ≠ "metadata"

theorem Regular.withoutManagedFields {o : Object} (ho : o.Regular) :
    o.withoutManagedFields.Regular := ⟨ho.metadata, ho.body⟩

theorem Regular.stamp {o : Object} (ho : o.Regular) (k : Kind) : (o.stamp k).Regular :=
  ⟨ho.metadata, ho.body⟩

theorem mem_of_mem_takeTypes {apiVersion kind : Option String} {members : List (String × Json)}
    {m : String × Json} (h : m ∈ (takeTypes apiVersion kind members).2) : m ∈ members := by
  fun_induction takeTypes apiVersion kind members with
  | case1 => exact h
  | case2 _ _ _ ih => exact List.mem_cons_of_mem _ (ih h)
  | case3 => exact List.mem_cons_of_mem _ h
  | case4 _ _ _ ih => exact List.mem_cons_of_mem _ (ih h)
  | case5 => exact List.mem_cons_of_mem _ h
  | case6 _ _ first rest _ _ types body hrest ih =>
    rcases List.mem_cons.mp h with rfl | hbody
    · exact List.mem_cons_self
    · exact List.mem_cons_of_mem _ (ih (hrest ▸ hbody))

theorem others_ofDecoded (j : Json) :
    ∀ m ∈ (Metadata.ofDecoded j).others, m.1 ∉ Metadata.ownMembers := by
  intro m hm
  simpa using (List.mem_filter.mp hm).2

theorem regular_ofMembers {metadata : Option Metadata} {members : List (String × Json)}
    (hmetadata : ∀ found, metadata = some found → ∀ m ∈ found.others, m.1 ∉ Metadata.ownMembers)
    (hmembers : ∀ m ∈ members, m.1 ≠ "metadata") : (ofMembers metadata members).Regular where
  metadata := by
    cases metadata with
    | none => exact fun m hm => absurd hm List.not_mem_nil
    | some found => exact hmetadata found rfl
  body := fun m hm => hmembers m (mem_of_mem_takeTypes (Json.mem_of_mem_sortMembers hm))

/-- What is known of an object while its members are read. -/
structure Begun (found : Option Metadata × List (String × Json)) : Prop where
  metadata : ∀ m, found.1 = some m → ∀ other ∈ m.others, other.1 ∉ Metadata.ownMembers
  others : ∀ m ∈ found.2, m.1 ≠ "metadata"

/-- Every object that is read is regular. -/
theorem regular_read : Reader.Yields Regular read := by
  have hstart : Begun (none, []) := ⟨nofun, fun m hm => absurd hm List.not_mem_nil⟩
  refine Reader.Yields.object (Reader.Yields.bind (Reader.yields_members hstart ?_) ?_) _
  · rintro ⟨metadata, others⟩ key ⟨hmetadata, hothers⟩
    dsimp only
    split
    · next hkey =>
      refine Reader.yields_after _ fun value => Reader.yields_pure ⟨hmetadata, ?_⟩
      exact List.forall_mem_cons.mpr ⟨hkey, hothers⟩
    · split
      · exact Reader.yields_refuseObject _
      · have hread : Reader.Yields
            (fun m : Metadata => ∀ other ∈ m.others, other.1 ∉ Metadata.ownMembers)
            Metadata.read :=
          (Reader.yields_anything _).map fun j _ => others_ofDecoded j
        refine hread.afterColon.bind fun m hm => Reader.yields_pure ⟨?_, hothers⟩
        rintro _ hsame
        exact Option.some.inj hsame ▸ hm
  · rintro ⟨metadata, others⟩ ⟨hmetadata, hothers⟩
    refine Reader.yields_pure (regular_ofMembers hmetadata fun m hm => hothers m ?_)
    exact List.mem_reverse.mp hm

theorem get?_toJson_metadata {o : Object} (ho : o.Regular) :
    o.toJson.get? "metadata" = some o.metadata.toJson := by
  have hbody : Json.member? "metadata" o.body.reverse = none :=
    Json.member?_eq_none_iff.mpr fun m hm => ho.body m (List.mem_reverse.mp hm)
  rw [toJson, Json.ofMembers, Json.get?, Json.members, Json.member?_sortMembers,
    List.reverse_append, List.reverse_cons, List.append_assoc, Json.member?_append, hbody]
  rfl

theorem eq_of_mem_toJson {o : Object} (ho : o.Regular) {j : Json}
    (h : ("metadata", j) ∈ o.toJson.members) : j = o.metadata.toJson := by
  rcases List.mem_append.mp (Json.mem_of_mem_sortMembers h) with htypes | hrest
  · obtain ⟨t, -, ht⟩ := List.mem_flatMap.mp htypes
    simp at ht
  · rcases List.mem_cons.mp hrest with heq | hbody
    · exact congrArg Prod.snd heq
    · exact absurd rfl (ho.body _ hbody)

theorem get?_toJson_managedFields {m : Metadata}
    (hm : ∀ other ∈ m.others, other.1 ∉ Metadata.ownMembers) :
    m.toJson.get? "managedFields" = m.managedFields := by
  have hnamed : ∀ own ∈ [("name", m.name.map Json.string), ("namespace", m.ns.map .string),
      ("labels", m.labels.map .ofStrings), ("annotations", m.annotations.map .ofStrings)],
      own.1 ≠ "managedFields" := by
    simp
  rw [Metadata.toJson, Json.get?_ofPresent_append]
  · exact Json.get?_ofPresent_last hnamed m.managedFields
  · intro other hother heq
    obtain ⟨own, hown, rfl⟩ := List.mem_map.mp hother
    have hname : own.1 = "managedFields" := heq
    exact hm own hown (hname ▸ by decide)

/-- The value of a regular object shows the record exactly if the object has one. -/
theorem Regular.managedFields?_toJson {o : Object} (ho : o.Regular) :
    o.toJson.managedFields? = o.metadata.managedFields := by
  rw [Json.managedFields?, get?_toJson_metadata ho]
  exact get?_toJson_managedFields ho.metadata

end Object

/-! ## Resources -/

namespace Schema

theorem exists_of_field? {fields : List (String × Bool × Schema)} {name : String} {s : Schema}
    (h : field? fields name = some s) : ∃ isRequired, (name, isRequired, s) ∈ fields := by
  obtain ⟨⟨n, isRequired, s'⟩, hfind, rfl⟩ := Option.map_eq_some_iff.mp h
  have hname : n = name := by simpa using List.find?_some hfind
  exact ⟨isRequired, hname ▸ List.mem_of_find?_eq_some hfind⟩

/-- A member is passed over or decoded, or it is null and counts as missing. -/
theorem decodeFields_cons {fields : List (String × Bool × Schema)} {key : String} {j : Json}
    {rest : List (String × Json)} {decoded : List (String × Option Json)}
    (h : decodeFields fields ((key, j) :: rest) = .ok decoded) :
    decodeFields fields rest = .ok decoded ∨
      ∃ s first later, field? fields key = some s ∧ decodeFields fields rest = .ok later ∧
        decoded = (key, first) :: later ∧ ∀ v, first = some v → decode s j = .ok v := by
  rw [decodeFields] at h
  split at h
  · exact Or.inl h
  · next s hfield =>
    right
    split at h
    · obtain ⟨first, hfirst, h⟩ := LabelSelector.bind_eq_ok_iff.mp h
      obtain ⟨later, hrest, h⟩ := LabelSelector.bind_eq_ok_iff.mp h
      cases hfirst
      cases h
      exact ⟨s, none, later, hfield, hrest, rfl, nofun⟩
    · obtain ⟨first, hfirst, h⟩ := LabelSelector.bind_eq_ok_iff.mp h
      obtain ⟨later, hrest, h⟩ := LabelSelector.bind_eq_ok_iff.mp h
      cases h
      refine ⟨s, first, later, hfield, hrest, rfl, ?_⟩
      rintro v rfl
      cases hdecode : decode s j with
      | error p =>
        rw [hdecode] at hfirst
        cases hfirst
      | ok found =>
        rw [hdecode] at hfirst
        cases hfirst
        rfl

/-- What was decoded under a name was a member of that name. -/
theorem exists_of_decodeFields {fields : List (String × Bool × Schema)}
    {members : List (String × Json)} {decoded : List (String × Option Json)}
    (h : decodeFields fields members = .ok decoded) {name : String} {v : Json}
    (hv : (name, some v) ∈ decoded) :
    ∃ s j, field? fields name = some s ∧ (name, j) ∈ members ∧ decode s j = .ok v := by
  induction members generalizing decoded with
  | nil =>
    rw [decodeFields] at h
    cases h
    cases hv
  | cons m rest ih =>
    have hlater {later : List (String × Option Json)} (hrest : decodeFields fields rest = .ok later)
        (hv : (name, some v) ∈ later) :
        ∃ s j, field? fields name = some s ∧ (name, j) ∈ m :: rest ∧ decode s j = .ok v := by
      obtain ⟨s, j, hfield, hmem, hdecode⟩ := ih hrest hv
      exact ⟨s, j, hfield, List.mem_cons_of_mem _ hmem, hdecode⟩
    rcases decodeFields_cons h with hrest | ⟨s, first, later, hfield, hrest, rfl, hdecode⟩
    · exact hlater hrest hv
    · rcases List.mem_cons.mp hv with hhead | htail
      · cases hhead
        exact ⟨s, m.2, hfield, List.mem_cons_self, hdecode v rfl⟩
      · exact hlater hrest htail

/-- A member of a decoded record is a default value, or it was decoded. -/
theorem exists_of_get?_decode {title : String} {fields : List (String × Bool × Schema)}
    {members : List (String × Json)} {resource : Json}
    (h : decode (.record title fields) (.object members) = .ok resource) {name : String} {v : Json}
    (hv : resource.get? name = some v) :
    (∃ s, (name, true, s) ∈ fields ∧ v = s.default) ∨
      ∃ isRequired s j, (name, isRequired, s) ∈ fields ∧ (name, j) ∈ members ∧
        decode s j = .ok v := by
  rw [decode] at h
  obtain ⟨decoded, hdecoded, h⟩ := LabelSelector.bind_eq_ok_iff.mp h
  cases h
  have hmem : (name, v) ∈ complete fields decoded :=
    Json.mem_of_mem_sortMembers (Json.mem_of_member? hv)
  obtain ⟨⟨n, isRequired, s⟩, hfield, hcomplete⟩ := List.mem_filterMap.mp hmem
  obtain ⟨w, hw, hsame⟩ := Option.map_eq_some_iff.mp hcomplete
  cases hsame
  rcases Option.or_eq_some_iff.mp hw with hlast | ⟨-, hdefault⟩
  · obtain ⟨⟨n', w⟩, hfind, hlast⟩ := Option.bind_eq_some_iff.mp hlast
    cases hlast
    have hname : n' = name := by simpa using List.find?_some hfind
    subst hname
    obtain ⟨s', j, hfield, hj, hdecode⟩ := exists_of_decodeFields hdecoded
      (List.mem_reverse.mp (List.mem_of_find?_eq_some hfind))
    obtain ⟨isRequired, hfield⟩ := exists_of_field? hfield
    exact Or.inr ⟨isRequired, s', j, hfield, hj, hdecode⟩
  · split at hdefault
    · next hrequired =>
      cases hdefault
      exact Or.inl ⟨s, hrequired ▸ hfield, rfl⟩
    · cases hdefault

/-- The member of a record that has a name, where only one has it. -/
theorem field_eq_of_filter {fields : List (String × Bool × Schema)} {name : String}
    {f g : String × Bool × Schema} (h : (fields.filter fun f => f.1 = name) = [f])
    (hg : g ∈ fields) (hname : g.1 = name) : g = f := by
  have hmem : g ∈ fields.filter fun f => f.1 = name :=
    List.mem_filter.mpr ⟨hg, decide_eq_true hname⟩
  rw [h] at hmem
  exact List.mem_singleton.mp hmem

theorem get?_decode_objectMeta {m : Metadata} (hm : m.toJson.get? "managedFields" = none)
    {j : Json} (h : objectMeta.decode m.toJson = .ok j) : j.get? "managedFields" = none := by
  cases hget : j.get? "managedFields" with
  | none => rfl
  | some record =>
    rcases exists_of_get?_decode h hget with ⟨s, hfield, -⟩ | ⟨_, s, w, -, hw, -⟩
    · cases field_eq_of_filter (f := optional "managedFields" (list managedFieldsEntry)) rfl
        hfield rfl
    · exact absurd rfl (Json.member?_eq_none_iff.mp hm _ hw)

end Schema

namespace ResourceType

/-- Every type has the metadata that all objects have. -/
theorem schema_eq_record (t : ResourceType) : ∃ title fields, t.schema = .record title fields ∧
    (fields.filter fun f => f.1 = "metadata") =
      [Schema.required "metadata" Schema.objectMeta] := by
  cases t <;> exact ⟨_, _, rfl, rfl⟩

/-- A resource shows no record that the object it was decoded from does not have. -/
theorem managedFields?_of_decode {t : ResourceType} {o : Object} (ho : o.Regular)
    (hnone : o.metadata.managedFields = none) {j : Json} (h : t.decode o = .ok j) :
    j.managedFields? = none := by
  obtain ⟨title, fields, hschema, hfields⟩ := t.schema_eq_record
  have hdecode : (Schema.record title fields).decode o.toJson = .ok j := by
    rw [← hschema]
    unfold decode at h
    cases hresult : t.schema.decode o.toJson with
    | error p =>
      rw [hresult] at h
      cases h
    | ok found =>
      rw [hresult] at h
      cases h
      rfl
  rw [Json.managedFields?]
  cases hget : j.get? "metadata" with
  | none => rfl
  | some metadata =>
    rcases Schema.exists_of_get?_decode hdecode hget with
      ⟨s, hfield, rfl⟩ | ⟨_, s, w, hfield, hw, hmetadata⟩
    · cases Schema.field_eq_of_filter hfields hfield rfl
      rfl
    · cases Schema.field_eq_of_filter hfields hfield rfl
      obtain rfl := Object.eq_of_mem_toJson ho hw
      refine Schema.get?_decode_objectMeta ?_ hmetadata
      rw [Object.get?_toJson_managedFields ho.metadata, hnone]

end ResourceType

end WatchCache
