import WatchCache.Proofs.Server.Group
import WatchCache.Server.Cluster

set_option autoImplicit false

/-!
# What discovery does to a scheme

A discovery makes all its requests before it touches the scheme.  If it gets through, it adds the
wanted kinds that were not known and that some group recommends; nothing else of the scheme
changes, and nothing at all if a request fails or an answer cannot be used.
-/

namespace WatchCache.Scheme

open Discovery

/-! ## Lookups -/

theorem resolve_of_find? {s : Scheme} {k : Kind} {r : Resource}
    (hfind : s.resources.find? k = some r) : s.resolve k = .ok r := by
  rw [resolve, hfind]

/-- Schemes that find the same for a kind resolve it alike. -/
theorem resolve_congr {s s' : Scheme} {k : Kind}
    (hfind : s'.resources.find? k = s.resources.find? k) : s'.resolve k = s.resolve k := by
  rw [resolve, resolve, hfind]

theorem contains_congr {s s' : Scheme} {k : Kind}
    (hfind : s'.resources.find? k = s.resources.find? k) : s'.contains k = s.contains k := by
  rw [contains, contains, Table.has, Table.has, hfind]

/-! ## Adding what groups recommend -/

/-- The last resource of a kind that groups recommend. -/
def recommended? (groups : List Group) (k : Kind) : Option Resource :=
  (groups.flatMap Group.recommended).reverse.find? fun r => r.toKind = k

theorem recommended?_eq_some {groups : List Group} {k : Kind} {r : Resource}
    (hlast : recommended? groups k = some r) :
    r.toKind = k ∧ ∃ g ∈ groups, r ∈ g.recommended := by
  refine ⟨by simpa using List.find?_some hlast, ?_⟩
  exact List.mem_flatMap.mp (List.mem_reverse.mp (List.mem_of_find?_eq_some hlast))

theorem exists_recommended? {groups : List Group} {g : Group} {r : Resource} (hg : g ∈ groups)
    (hr : r ∈ g.recommended) : ∃ last, recommended? groups r.toKind = some last := by
  refine Option.isSome_iff_exists.mp (List.find?_isSome.mpr ⟨r, ?_, by simp⟩)
  exact List.mem_reverse.mpr (List.mem_flatMap.mpr ⟨g, hg, hr⟩)

theorem types_addRecommended (wanted : List Kind) (s : Scheme) (groups : List Group) :
    (s.addRecommended wanted groups).types = s.types := by
  unfold addRecommended
  generalize groups.flatMap Group.recommended = resources
  induction resources generalizing s with
  | nil => rfl
  | cons r rest ih =>
    rw [List.foldl_cons, ih]
    split <;> rfl

/-- A wanted kind that is recommended gets the last resource that is recommended for it, and all
other kinds keep theirs. -/
theorem find?_addRecommended (wanted : List Kind) (s : Scheme) (groups : List Group) (k : Kind) :
    (s.addRecommended wanted groups).resources.find? k =
      if k ∈ wanted then (recommended? groups k).or (s.resources.find? k)
      else s.resources.find? k := by
  unfold addRecommended recommended?
  generalize groups.flatMap Group.recommended = resources
  induction resources generalizing s with
  | nil => simp
  | cons r rest ih =>
    rw [List.foldl_cons, ih, List.reverse_cons, List.find?_append]
    by_cases hk : k ∈ wanted
    · rw [if_pos hk, if_pos hk, Option.or_assoc]
      congr 1
      by_cases hr : r.toKind = k
      · simp [hr, hk]
      · by_cases hwanted : wanted.contains r.toKind = true
        · rw [if_pos hwanted, Table.find?_insert_of_ne _ _ (Ne.symm hr)]
          simp [hr]
        · rw [if_neg hwanted]
          simp [hr]
    · rw [if_neg hk, if_neg hk]
      split
      · next hwanted =>
        have hne : k ≠ r.toKind := fun heq => hk (heq ▸ List.contains_iff_mem.mp hwanted)
        exact Table.find?_insert_of_ne _ _ hne
      · rfl

/-! ## The course of a discovery -/

theorem mem_missing_iff (s : Scheme) (kinds : List Kind) (k : Kind) :
    k ∈ s.missing kinds ↔ k ∈ kinds ∧ s.contains k = false := by
  simp [missing]

/-- How a discovery ends, and the scheme after it, once it is known how the talk with the server
turned out. -/
def conclude (s : Scheme) (kinds : List Kind) :
    Except RequestFailure (List Group) → Except RequestFailure Unit × Scheme
  | .ok groups => (.ok (), s.addRecommended (s.missing kinds) groups)
  | .error f => (.error f, s)

/-- A discovery asks the server for everything that it has, if any kind is missing, and then
concludes. -/
theorem run_discoverInto (s : Scheme) (kinds : List Kind) :
    (discoverInto kinds).run.run s =
      if (s.missing kinds).isEmpty then .done (.ok (), s)
      else askAll.run.bind fun outcome => .done (s.conclude kinds outcome) := by
  have hstart : (discoverInto kinds).run.run s =
      (if (s.missing kinds).isEmpty then pure ()
       else (do
        let groups ← ExceptT.mk (StateT.lift askAll.run)
        modify fun s' => s'.addRecommended (s.missing kinds) groups :
          ExceptT RequestFailure (StateT Scheme Talk) Unit)).run.run s := rfl
  rw [hstart]
  split
  · rfl
  · -- what the scheme is does not matter until the server has said everything
    show (askAll.run.bind fun outcome => Talk.done (outcome, s)).bind _ = _
    rw [Talk.bind_assoc]
    congr 1
    funext outcome
    cases outcome <;> rfl

theorem missing_isEmpty_iff (s : Scheme) (kinds : List Kind) :
    (s.missing kinds).isEmpty = true ↔ ∀ k ∈ kinds, s.contains k = true := by
  simp [missing]

/-- A discovery of known kinds makes no request. -/
theorem withOutcomes_discoverInto_known {s : Scheme} {kinds : List Kind}
    (hknown : ∀ k ∈ kinds, s.contains k = true)
    (outcomes : List (Except RequestFailure Response)) :
    ((discoverInto kinds).run.run s).withOutcomes outcomes = ([], some (.ok (), s)) := by
  rw [run_discoverInto, if_pos ((missing_isEmpty_iff s kinds).mpr hknown)]
  rfl

/-- A discovery with an unknown kind makes the requests of the talk and concludes from it. -/
theorem withOutcomes_discoverInto {s : Scheme} {kinds : List Kind}
    (hunknown : ¬∀ k ∈ kinds, s.contains k = true)
    (outcomes : List (Except RequestFailure Response)) :
    ((discoverInto kinds).run.run s).withOutcomes outcomes =
      ((askAll.run.withOutcomes outcomes).1,
        (askAll.run.withOutcomes outcomes).2.map (s.conclude kinds)) := by
  rw [run_discoverInto, if_neg (mt (missing_isEmpty_iff s kinds).mp hunknown)]
  exact Talk.withOutcomes_map _ _ _

/-- A discovery with an unknown kind ends with what the server recommends, once it has reported
everything. -/
theorem ended_of_reported {s : Scheme} {kinds : List Kind} {groups : List Group}
    {outcomes : List (Except RequestFailure Response)}
    (hreported : (askAll.run.withOutcomes outcomes).2 = some (.ok groups))
    (hunknown : ¬∀ k ∈ kinds, s.contains k = true) :
    (((discoverInto kinds).run.run s).withOutcomes outcomes).2 =
      some (.ok (), s.addRecommended (s.missing kinds) groups) := by
  rw [withOutcomes_discoverInto hunknown, hreported]
  rfl

/-! ## A server with two versions of a group -/

namespace TwoVersions

/-- The kind of the version that the server prefers. -/
def gadget : Kind := ⟨"x.io", "v1", "Gadget"⟩

/-- The kind of its other version. -/
def widget : Kind := ⟨"x.io", "v1beta1", "Widget"⟩

def gadgets : Resource := .ofKind gadget "gadgets" false

def widgets : Resource := .ofKind widget "widgets" true

def groups : List Group :=
  [⟨"x.io", [⟨"v1", [gadgets]⟩, ⟨"v1beta1", [widgets]⟩], some "v1"⟩, ⟨"", [⟨"v1", []⟩], some "v1"⟩]

/-- What the server says of one version. -/
def listing (r : Resource) : Json :=
  let resource := Json.ofMembers [("kind", .string r.kind), ("name", .string r.plural),
    ("namespaced", .bool r.isNamespaced), ("singularName", .string ""), ("verbs", .array [])]
  .ofMembers [("groupVersion", .string r.apiVersion), ("resources", .array [resource])]

/-- What the server says, in the order in which it is asked. -/
def bodies : List Json :=
  let v1 := Cluster.versionJson "x.io" "v1"
  let v1beta1 := Cluster.versionJson "x.io" "v1beta1"
  let group := Json.ofMembers [("name", .string "x.io"), ("preferredVersion", v1),
    ("versions", .array [v1, v1beta1])]
  [.ofMembers [("groups", .array [group])], listing gadgets, listing widgets,
   .ofMembers [("serverAddressByClientCIDRs", .array []), ("versions", .array [.string "v1"])],
   .ofMembers [("groupVersion", .string "v1"), ("resources", .array [])]]

def outcomes : List (Except RequestFailure Response) := bodies.map fun j => .ok (Cluster.found j)

theorem reported : (askAll.run.withOutcomes outcomes).2 = some (.ok groups) := by decide +kernel

end TwoVersions

/-! ## What a discovery leaves as it was -/

/-- The second scheme knows what the first one knows and has its types, and only some of the kinds
are new in it. -/
structure Widens (kinds : List Kind) (s s' : Scheme) : Prop where
  known : ∀ k, s.contains k = true → s'.resolve k = s.resolve k
  added : ∀ k, s'.contains k = true → s.contains k = true ∨ k ∈ kinds
  types : s'.types = s.types

theorem Widens.refl (kinds : List Kind) (s : Scheme) : Widens kinds s s :=
  ⟨fun _ _ => rfl, fun _ => Or.inl, rfl⟩

theorem widens_addRecommended (s : Scheme) (kinds : List Kind) (groups : List Group) :
    Widens kinds s (s.addRecommended (s.missing kinds) groups) := by
  have hkept (k : Kind) (hk : k ∉ s.missing kinds) :
      (s.addRecommended (s.missing kinds) groups).resources.find? k = s.resources.find? k := by
    rw [find?_addRecommended, if_neg hk]
  refine ⟨fun k hk => resolve_congr (hkept k ?_), fun k hk => ?_, types_addRecommended _ s groups⟩
  · simp [mem_missing_iff, hk]
  · by_cases hmissing : k ∈ s.missing kinds
    · exact Or.inr ((mem_missing_iff s kinds k).mp hmissing).1
    · exact Or.inl (contains_congr (hkept k hmissing) ▸ hk)

theorem widens_conclude (s : Scheme) (kinds : List Kind)
    (outcome : Except RequestFailure (List Group)) :
    Widens kinds s (s.conclude kinds outcome).2 := by
  cases outcome with
  | ok groups => exact widens_addRecommended s kinds groups
  | error f => exact .refl kinds s

/-- A discovery that comes to its end, however its requests turn out, only adds some of the kinds
it is to find: all kinds that were known are resolved as before, and the types stay.  If it fails
nothing is added.  If all kinds are known it makes no request. -/
theorem discovery_only_adds (s : Scheme) (kinds : List Kind)
    (outcomes : List (Except RequestFailure Response)) :
    (∀ result s', (((discoverInto kinds).run.run s).withOutcomes outcomes).2 = some (result, s') →
        Widens kinds s s' ∧ ∀ f, result = .error f → s' = s) ∧
      ((∀ k ∈ kinds, s.contains k = true) →
        ((discoverInto kinds).run.run s).withOutcomes outcomes = ([], some (.ok (), s))) := by
  refine ⟨fun result s' hended => ?_, fun hknown => withOutcomes_discoverInto_known hknown _⟩
  by_cases hknown : ∀ k ∈ kinds, s.contains k = true
  · rw [withOutcomes_discoverInto_known hknown] at hended
    cases hended
    exact ⟨.refl kinds s, fun _ _ => rfl⟩
  · rw [withOutcomes_discoverInto hknown] at hended
    obtain ⟨outcome, -, hconclude⟩ := Option.map_eq_some_iff.mp hended
    have hwidens := widens_conclude s kinds outcome
    rw [hconclude] at hwidens
    refine ⟨hwidens, fun f hf => ?_⟩
    cases outcome with
    | ok groups =>
      cases hconclude
      cases hf
    | error e =>
      cases hconclude
      rfl

/-- A discovery with a server that has a new kind for a scheme that knows the other one under a name
of its own, then with a server out of reach, and one of nothing but known kinds. -/
theorem discovery_only_adds_beside_known :
    let s := Scheme.addKind {} TwoVersions.widget "gizmos" false
    let kinds := [TwoVersions.widget, TwoVersions.gadget, TwoVersions.gadget]
    (∃ s', (((discoverInto kinds).run.run s).withOutcomes TwoVersions.outcomes).2 =
        some (.ok (), s') ∧ Widens kinds s s' ∧
      s'.resolve TwoVersions.widget = .ok (.ofKind TwoVersions.widget "gizmos" false) ∧
      s'.resolve TwoVersions.gadget = .ok TwoVersions.gadgets) ∧
    (∃ s', (((discoverInto kinds).run.run s).withOutcomes [.error .unreachable]).2 =
        some (.error .unreachable, s') ∧ s' = s) ∧
    ((discoverInto [TwoVersions.widget]).run.run s).withOutcomes [] = ([], some (.ok (), s)) := by
  intro s kinds
  have hunknown : ¬∀ k ∈ kinds, s.contains k = true := by decide
  have hended := ended_of_reported TwoVersions.reported hunknown
  have hfailed : (((discoverInto kinds).run.run s).withOutcomes [.error .unreachable]).2 =
      some (.error .unreachable, s) := by
    decide +kernel
  obtain ⟨hwidens, -⟩ := (discovery_only_adds s kinds TwoVersions.outcomes).1 _ _ hended
  obtain ⟨-, hunchanged⟩ := (discovery_only_adds s kinds [.error .unreachable]).1 _ _ hfailed
  have hknown := (discovery_only_adds s [TwoVersions.widget] []).2 (by decide)
  exact ⟨⟨_, hended, hwidens, hwidens.known TwoVersions.widget (by decide), by decide⟩,
    ⟨s, hfailed, hunchanged _ rfl⟩, hknown⟩

/-! ## What a discovery finds -/

/-- An unknown kind that is wanted is resolved after a discovery to a resource that some group
recommends for it, if one does. -/
theorem resolve_addRecommended {s : Scheme} {kinds : List Kind} {k : Kind} (hk : k ∈ kinds)
    (hunknown : s.contains k = false) (groups : List Group) :
    let found := s.addRecommended (s.missing kinds) groups
    (∀ r, found.resolve k = .ok r → r.toKind = k ∧ ∃ g ∈ groups, r ∈ g.recommended) ∧
      ((∃ g ∈ groups, ∃ r ∈ g.recommended, r.toKind = k) → ∃ r, found.resolve k = .ok r) := by
  intro found
  have hnone : s.resources.find? k = none := by simpa [contains, Table.has] using hunknown
  have hfind : found.resources.find? k = recommended? groups k := by
    rw [find?_addRecommended, if_pos ((mem_missing_iff s kinds k).mpr ⟨hk, hunknown⟩), hnone,
      Option.or_none]
  constructor
  · intro r hr
    rw [resolve, hfind] at hr
    cases hlast : recommended? groups k with
    | none =>
      rw [hlast] at hr
      cases hr
    | some last =>
      rw [hlast] at hr
      cases hr
      exact recommended?_eq_some hlast
  · rintro ⟨g, hg, r, hr, rfl⟩
    obtain ⟨last, hlast⟩ := exists_recommended? hg hr
    exact ⟨last, resolve_of_find? (hfind.trans hlast)⟩

/-- If a server reports its groups, then a discovery succeeds, and of the kinds that it is to find
it resolves those that were not known exactly if some group recommends a resource of the kind, and
then to such a resource.  A group recommends the resources of the version that it prefers, or of
its most mature one if it prefers none. -/
theorem recommended_kinds_resolve (s : Scheme) (kinds : List Kind) {groups : List Group}
    {outcomes : List (Except RequestFailure Response)}
    (hreported : (askAll.run.withOutcomes outcomes).2 = some (.ok groups)) :
    (∀ g ∈ groups, (∃ v, g.Recommends v ∧ g.recommended = v.resources) ∨
      (∀ v, ¬g.Recommends v) ∧ g.recommended = []) ∧
    ∃ s', (((discoverInto kinds).run.run s).withOutcomes outcomes).2 = some (.ok (), s') ∧
      ∀ k ∈ kinds,
        (s.contains k = true → s'.resolve k = s.resolve k) ∧
        (s.contains k = false →
          (∀ r, s'.resolve k = .ok r → r.toKind = k ∧ ∃ g ∈ groups, r ∈ g.recommended) ∧
          ((∃ g ∈ groups, ∃ r ∈ g.recommended, r.toKind = k) → ∃ r, s'.resolve k = .ok r)) := by
  refine ⟨fun g hg => g.recommended_cases (brings_askAll.result hreported groups rfl g hg), ?_⟩
  by_cases hknown : ∀ k ∈ kinds, s.contains k = true
  · refine ⟨s, by rw [withOutcomes_discoverInto_known hknown], fun k hk => ?_⟩
    refine ⟨fun _ => rfl, fun hunknown => ?_⟩
    rw [hknown k hk] at hunknown
    cases hunknown
  · refine ⟨s.addRecommended (s.missing kinds) groups, ?_, fun k hk => ?_⟩
    · exact ended_of_reported hreported hknown
    · exact ⟨(widens_addRecommended s kinds groups).known k,
        fun hunknown => resolve_addRecommended hk hunknown groups⟩

/-- The kind of the preferred version is found. -/
theorem recommended_kinds_resolve_preferred_version :
    (askAll.run.withOutcomes TwoVersions.outcomes).2 = some (.ok TwoVersions.groups) ∧
    ∃ s', (((discoverInto [TwoVersions.gadget]).run.run {}).withOutcomes
        TwoVersions.outcomes).2 = some (.ok (), s') ∧
      s'.resolve TwoVersions.gadget = .ok TwoVersions.gadgets := by
  obtain ⟨hgroups, s', hended, hfound⟩ :=
    recommended_kinds_resolve {} [TwoVersions.gadget] TwoVersions.reported
  refine ⟨TwoVersions.reported, s', hended, ?_⟩
  obtain ⟨-, hnew⟩ := hfound TwoVersions.gadget List.mem_cons_self
  obtain ⟨hresource, hresolved⟩ := hnew (by decide)
  obtain ⟨r, hr⟩ := hresolved (by decide)
  obtain ⟨hkind, g, hg, hrecommended⟩ := hresource r hr
  have honly : ∀ g ∈ TwoVersions.groups, ∀ r ∈ g.recommended, r = TwoVersions.gadgets := by decide
  rw [hr, honly g hg r hrecommended]

/-- A kind that is served in a version that is not the preferred one is not found, although the
discovery succeeds. -/
theorem other_version_is_left_out :
    (∃ g ∈ TwoVersions.groups, ∃ v ∈ g.versions, TwoVersions.widgets ∈ v.resources) ∧
    TwoVersions.widgets.toKind = TwoVersions.widget ∧
    (askAll.run.withOutcomes TwoVersions.outcomes).2 = some (.ok TwoVersions.groups) ∧
    ∃ s', (((discoverInto [TwoVersions.widget]).run.run {}).withOutcomes
        TwoVersions.outcomes).2 = some (.ok (), s') ∧
      s'.resolve TwoVersions.widget = .error (.unknownKind TwoVersions.widget.key) := by
  exact ⟨by decide, by decide, TwoVersions.reported, _,
    ended_of_reported TwoVersions.reported (by decide), by decide⟩

end WatchCache.Scheme
