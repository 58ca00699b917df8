import Mathlib.Data.String.Basic
import WatchCache.Proofs.Server.Talk
import WatchCache.Proofs.Table
import WatchCache.Server.Discovery

set_option autoImplicit false

/-!
# Recommended versions

The versions of a group are ranked by their maturity, which is a total order on their names.  A
group whose versions stand in this order recommends the version that it prefers, or else one that
no other version is more mature than; and the groups that discovery brings have their versions in
this order, whatever the server answered.
-/

namespace WatchCache.Discovery

/-! ## The order of maturity -/

/-- The name of a version that is no number. -/
def Maturity.word : Maturity → String
  | .other name => name
  | _ => ""

/-- One version comes before another by its rank, highest first, and then by its name. -/
theorem Maturity.precedes_iff (a b : Maturity) :
    a.precedes b = true ↔
      b.rank.1 < a.rank.1 ∨ b.rank.1 = a.rank.1 ∧
        (b.rank.2.1 < a.rank.2.1 ∨ b.rank.2.1 = a.rank.2.1 ∧
          (b.rank.2.2 < a.rank.2.2 ∨ b.rank.2.2 = a.rank.2.2 ∧ a.word ≤ b.word)) := by
  cases a <;> cases b <;>
    simp only [precedes, Bool.or_eq_true, Bool.and_eq_true, decide_eq_true_eq] <;>
    simp [rank, word] <;> omega

theorem Maturity.precedes_total (a b : Maturity) : (a.precedes b || b.precedes a) = true := by
  rw [Bool.or_eq_true, precedes_iff, precedes_iff]
  have hword := le_total a.word b.word
  grind

theorem Maturity.precedes_trans (a b c : Maturity) (hab : a.precedes b = true)
    (hbc : b.precedes c = true) : a.precedes c = true := by
  rw [precedes_iff] at *
  have hword : a.word ≤ b.word → b.word ≤ c.word → a.word ≤ c.word := le_trans
  grind

/-! ## Recommendations -/

theorem Version.leads_refl (v : Version) : v.leads v = true := by
  have htotal := (Maturity.ofName v.name).precedes_total (.ofName v.name)
  rwa [Bool.or_self] at htotal

theorem Version.leads_of_not {v w : Version} (h : ¬v.leads w = true) : w.leads v = true := by
  have htotal := (Maturity.ofName v.name).precedes_total (.ofName w.name)
  exact (Bool.or_eq_true_iff.mp htotal).resolve_left h

theorem Version.leads_trans {u v w : Version} (huv : u.leads v = true) (hvw : v.leads w = true) :
    u.leads w = true :=
  Maturity.precedes_trans _ _ _ huv hvw

/-- Each version leads all those behind it. -/
def Ranked (versions : List Version) : Prop := versions.Pairwise fun v w => v.leads w = true

theorem Version.mem_rankIn {v w : Version} {versions : List Version} :
    w ∈ v.rankIn versions ↔ w = v ∨ w ∈ versions := by
  induction versions with
  | nil => simp [rankIn]
  | cons u rest ih => grind [rankIn]

theorem Ranked.rankIn {versions : List Version} (h : Ranked versions) (v : Version) :
    Ranked (v.rankIn versions) := by
  induction versions with
  | nil => exact List.pairwise_singleton _ v
  | cons w rest ih =>
    obtain ⟨hw, hrest⟩ := List.pairwise_cons.mp h
    rw [Version.rankIn]
    split
    · next hvw =>
      refine List.pairwise_cons.mpr ⟨fun u hu => ?_, h⟩
      rcases List.mem_cons.mp hu with rfl | hbehind
      · exact hvw
      · exact Version.leads_trans hvw (hw u hbehind)
    · next hvw =>
      refine List.pairwise_cons.mpr ⟨fun u hu => ?_, ih hrest⟩
      rcases Version.mem_rankIn.mp hu with rfl | hbehind
      · exact Version.leads_of_not hvw
      · exact hw u hbehind

theorem Group.ranked_sorted (g : Group) : Ranked g.sorted.versions := by
  show Ranked (g.versions.foldr Version.rankIn [])
  induction g.versions with
  | nil => exact List.Pairwise.nil
  | cons v rest ih => exact ih.rankIn v

/-- The group recommends a version: the one that it prefers, or if it prefers none one that leads
all others. -/
structure Group.Recommends (g : Group) (v : Version) : Prop where
  served : v ∈ g.versions
  preferred : ∀ name, g.preferred = some name → v.name = name
  leads : g.preferred = none → ∀ w ∈ g.versions, v.leads w = true

/-- What a group recommends are the resources of a version that it recommends, if there is one. -/
theorem Group.recommended_cases {g : Group} (hranked : Ranked g.versions) :
    (∃ v, g.Recommends v ∧ g.recommended = v.resources) ∨
      (∀ v, ¬g.Recommends v) ∧ g.recommended = [] := by
  let name := g.preferred.or (g.versions.head?.map Version.name)
  have hrecommended : g.recommended =
      ((g.versions.find? fun v => some v.name = name).map Version.resources).getD [] := rfl
  cases hfind : g.versions.find? fun v => some v.name = name with
  | some v =>
    refine Or.inl
      ⟨v, ⟨List.mem_of_find?_eq_some hfind, fun wanted hwanted => ?_, fun hnone => ?_⟩, ?_⟩
    · have hname : some v.name = name := by simpa using List.find?_some hfind
      rw [show name = some wanted by simp [name, hwanted]] at hname
      exact Option.some.inj hname
    · -- without a preference the first version is found, which leads all others
      cases hversions : g.versions with
      | nil =>
        rw [hversions] at hfind
        cases hfind
      | cons first rest =>
        have hname : name = some first.name := by simp [name, hnone, hversions]
        rw [hversions, hname, List.find?_cons_of_pos (by simp)] at hfind
        cases hfind
        rw [Ranked, hversions] at hranked
        exact List.forall_mem_cons.mpr ⟨v.leads_refl, (List.pairwise_cons.mp hranked).1⟩
    · rw [hrecommended, hfind]
      rfl
  | none =>
    refine Or.inr ⟨fun v hv => ?_, by rw [hrecommended, hfind]; rfl⟩
    have hnever := List.find?_eq_none.mp hfind
    cases hpreferred : g.preferred with
    | some wanted =>
      refine hnever v hv.served ?_
      simp [name, hpreferred, hv.preferred wanted hpreferred]
    | none =>
      cases hversions : g.versions with
      | nil =>
        have hserved := hv.served
        rw [hversions] at hserved
        cases hserved
      | cons first rest =>
        refine hnever first (hversions ▸ List.mem_cons_self) ?_
        simp [name, hpreferred, hversions]

/-! ## What discovery brings -/

/-- Every value that an inquiry brings has a property. -/
def Inquiry.Brings {α : Type} (P : α → Prop) (i : Inquiry α) : Prop :=
  i.run.Ensures fun outcome => ∀ a, outcome = .ok a → P a

section

variable {α β : Type} {P : α → Prop} {Q : β → Prop}

theorem Inquiry.Brings.pure {a : α} (ha : P a) : Brings P (Pure.pure a) := by
  rintro _ ⟨⟩
  exact ha

theorem Inquiry.brings_throw (f : RequestFailure) : Brings P (throw f) := nofun

theorem Inquiry.Brings.bind {i : Inquiry α} {f : α → Inquiry β} (hi : i.Brings P)
    (hf : ∀ a, P a → (f a).Brings Q) : (i >>= f).Brings Q := by
  refine Talk.Ensures.bind hi fun outcome houtcome => ?_
  cases outcome with
  | ok a => exact hf a (houtcome a rfl)
  | error e => exact nofun

theorem Inquiry.brings_true (i : Inquiry α) : i.Brings fun _ => True := by
  have hall (t : Talk (Except RequestFailure α)) : t.Ensures fun o => ∀ a, o = .ok a → True := by
    induction t with
    | done a => exact fun _ _ => trivial
    | ask r next ih => exact ih
  exact hall i.run

end

theorem brings_askGroup (name : String) (preferred : Option String)
    (targets : List (String × String)) :
    (askGroup name preferred targets).Brings fun g => Ranked g.versions := by
  have hasked : Inquiry.Brings (fun g => Ranked g.versions)
      (do let versions ← askVersions targets; pure (Group.sorted ⟨name, versions, preferred⟩)) :=
    .bind (Inquiry.brings_true _) fun versions _ => .pure (Group.ranked_sorted _)
  unfold askGroup
  split
  · exact .bind (P := fun _ => True) (Inquiry.brings_throw _) fun _ _ => hasked
  · exact hasked

theorem brings_askGroups (items : List Json) :
    (askGroups items).Brings fun groups => ∀ g ∈ groups, Ranked g.versions := by
  induction items with
  | nil => exact .pure (by simp)
  | cons item rest ih =>
    refine .bind (brings_askGroup _ _ _) fun group hgroup => ?_
    refine .bind ih fun groups hgroups => ?_
    exact .pure (List.forall_mem_cons.mpr ⟨hgroup, hgroups⟩)

/-- All groups of a server come with their versions in the order of maturity. -/
theorem brings_askAll : askAll.Brings fun groups => ∀ g ∈ groups, Ranked g.versions := by
  refine .bind (Inquiry.brings_true _) fun listed _ => ?_
  refine .bind (brings_askGroups _) fun groups hgroups => ?_
  refine .bind (Inquiry.brings_true _) fun core _ => ?_
  refine .bind (brings_askGroup _ _ _) fun last hlast => ?_
  refine .pure fun g hg => ?_
  obtain ⟨⟨name, g⟩, hpair, rfl⟩ := List.mem_map.mp hg
  have hfound := (Table.distinct_ofPairs _).find?_of_mem hpair
  obtain ⟨g', hmem, heq⟩ := List.mem_map.mp (Table.mem_of_find?_ofPairs hfound)
  cases heq
  rcases List.mem_append.mp hmem with hold | hnew
  · exact hgroups g hold
  · exact List.mem_singleton.mp hnew ▸ hlast

end WatchCache.Discovery
