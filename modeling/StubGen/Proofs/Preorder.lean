import StubGen.Proofs.Hierarchy.Traversal
import StubGen.Proofs.Inheritance.Validation

/-!
# The order in which a walk enters types

A walk finishes everything below a type before it goes on with the clauses that were waiting. So a
walk is a tree: below each type that it enters stand the walks over that type's own clauses. Where
no type inherits from itself, a walk that comes back to a type finds everything below it entered,
and a type is entered before one of its subtypes only if some type on the way names the two in that
order.

Main results:

* `Traverses.explores` — the walk as a tree;
* `Explores.finished` — what clauses lead to has been entered when the walk over them is done;
* `exists_listsFirst_of_comesFirst` — why a type is entered before its subtype.
-/

namespace StubGen

/-! ## Coming first in a list -/

/-- `c` occurs in a list, and `d` does not occur before it. -/
def ComesFirst {α : Type} (c d : α) : List α → Prop
  | [] => False
  | x :: xs => x = c ∨ x ≠ d ∧ ComesFirst c d xs

theorem comesFirst_append {α : Type} {c d : α} {xs ys : List α} :
    ComesFirst c d (xs ++ ys) ↔ ComesFirst c d xs ∨ d ∉ xs ∧ ComesFirst c d ys := by
  induction xs with
  | nil => simp [ComesFirst]
  | cons x xs ih =>
    rw [List.cons_append, ComesFirst, ComesFirst, ih, List.mem_cons, not_or, ne_comm (a := x)]
    tauto

namespace Hierarchy

open Relation

/-- A clause leads to `e`, at once or through further clauses. -/
def LeadsTo (r : Registry) (next : Declaration → List TypeRef) (t : TypeRef) (e : Declaration) :
    Prop :=
  ∃ p, parent? r t = some p ∧ ReflTransGen (Leads r next) p e

/-- The types that a walk over clauses enters, those below a type right behind it. -/
inductive Explores (r : Registry) (next : Declaration → List TypeRef) :
    List BinaryName → List TypeRef → List Declaration → Prop
  | done {seen : List BinaryName} : Explores r next seen [] []
  | pass {seen : List BinaryName} {t : TypeRef} {ts : List TypeRef} {ds : List Declaration}
      (hseen : ∀ p, parent? r t = some p → p.name ∈ seen) (rest : Explores r next seen ts ds) :
      Explores r next seen (t :: ts) ds
  | enter {seen : List BinaryName} {t : TypeRef} {p : Declaration} {ts : List TypeRef}
      {below ds : List Declaration} (hp : parent? r t = some p) (hnew : p.name ∉ seen)
      (inner : Explores r next (p.name :: seen) (next p) below)
      (rest : Explores r next (after (p.name :: seen) below) ts ds) :
      Explores r next seen (t :: ts) (p :: below ++ ds)

variable {r : Registry} {next : Declaration → List TypeRef}

/-! ## The tree of a walk -/

theorem map_snd_clauses (d : Declaration) : (clauses next d).map (·.2) = next d := by
  rw [clauses, List.map_map]
  exact List.map_id _

theorem Traverses.explores {seen : List BinaryName} {cs : List (Declaration × TypeRef)}
    {steps : List Step} (h : Traverses r next seen cs steps) :
    Explores r next seen (cs.map (·.2)) (entered steps) := by
  induction h with
  | done => exact .done
  | pass hp hseen _ ih => exact .pass (fun p h => hseen p (hp.symm.trans h)) ih
  | @enter seen d t p cs below steps hp hnew _ _ ihinner ihrest =>
    rw [map_snd_clauses] at ihinner
    show Explores r next seen (t :: cs.map (·.2)) (p :: entered (below ++ steps))
    rw [entered_append]
    exact .enter hp hnew ihinner ihrest

/-- The walk from a type. -/
theorem explores_visited (r : Registry) (next : Declaration → List TypeRef)
    (target : Declaration) :
    Explores r next [target.name] (next target) (entered (steps r next target)) := by
  have h := (traverses_steps r next target).explores
  rwa [map_snd_clauses] at h

/-! ## What a walk has behind it -/

namespace Explores

variable {seen : List BinaryName} {ts : List TypeRef} {ds : List Declaration}

/-- A walk only enters what its clauses lead to. -/
theorem leadsTo (h : Explores r next seen ts ds) {d : Declaration} (hd : d ∈ ds) :
    ∃ t ∈ ts, LeadsTo r next t d := by
  induction h with
  | done => cases hd
  | pass _ _ ih =>
    obtain ⟨t, ht, hlead⟩ := ih hd
    exact ⟨t, List.mem_cons_of_mem _ ht, hlead⟩
  | @enter _ t p _ below _ hp _ _ _ ihbelow ihrest =>
    rcases List.mem_append.1 hd with hd | hd
    · refine ⟨t, List.mem_cons_self, p, hp, ?_⟩
      rcases List.mem_cons.1 hd with rfl | hd
      · exact .refl
      · obtain ⟨u, hu, q, hq, hreach⟩ := ihbelow hd
        exact .head ⟨u, hu, hq⟩ hreach
    · obtain ⟨u, hu, hlead⟩ := ihrest hd
      exact ⟨u, List.mem_cons_of_mem _ hu, hlead⟩

end Explores

theorem LeadsTo.lookup {t : TypeRef} {e : Declaration} (h : LeadsTo r next t e) :
    r.lookup e.name = some e := by
  obtain ⟨p, hp, hreach⟩ := h
  exact lookup_of_reachable (lookup_of_parent? hp) hreach

theorem LeadsTo.trans {t : TypeRef} {d e : Declaration} (h : LeadsTo r next t d)
    (hd : ReflTransGen (Leads r next) d e) : LeadsTo r next t e := by
  obtain ⟨p, hp, hreach⟩ := h
  exact ⟨p, hp, hreach.trans hd⟩

theorem LeadsTo.reaches {t : TypeRef} {p e : Declaration} (h : LeadsTo r next t e)
    (hp : parent? r t = some p) : ReflTransGen (Leads r next) p e := by
  obtain ⟨q, hq, hreach⟩ := h
  obtain rfl := Option.some.inj (hp.symm.trans hq)
  exact hreach

/-- A type leads where its clauses lead. -/
theorem exists_leadsTo_of_transGen {d e : Declaration} (h : TransGen (Leads r next) d e) :
    ∃ t ∈ next d, LeadsTo r next t e := by
  obtain ⟨p, ⟨t, ht, hp⟩, hreach⟩ := TransGen.head'_iff.1 h
  exact ⟨t, ht, p, hp, hreach⟩

theorem transGen_of_leadsTo {d e : Declaration} {t : TypeRef} (ht : t ∈ next d)
    (h : LeadsTo r next t e) : TransGen (Leads r next) d e := by
  obtain ⟨p, hp, hreach⟩ := h
  exact .head' ⟨t, ht, hp⟩ hreach

theorem eq_of_name_eq {d e : Declaration} (hd : r.lookup d.name = some d)
    (he : r.lookup e.name = some e) (h : d.name = e.name) : d = e := by
  rw [h, he] at hd
  exact (Option.some.inj hd).symm

/-- Everything below a type that clauses lead to has been seen if the type has. -/
def Settled (r : Registry) (next : Declaration → List TypeRef) (seen : List BinaryName)
    (ts : List TypeRef) : Prop :=
  ∀ t ∈ ts, ∀ d, LeadsTo r next t d → d.name ∈ seen →
    ∀ e, ReflTransGen (Leads r next) d e → e.name ∈ seen

theorem Settled.tail {seen : List BinaryName} {t : TypeRef} {ts : List TypeRef}
    (h : Settled r next seen (t :: ts)) : Settled r next seen ts :=
  fun u hu => h u (List.mem_cons_of_mem _ hu)

/-- No type leads back to itself. -/
def Acyclic (r : Registry) (next : Declaration → List TypeRef) : Prop :=
  ∀ d, ¬ TransGen (Leads r next) d d

/-- The type just entered is not among those that its own clauses lead to. -/
theorem Settled.inner (hacyclic : Acyclic r next) {seen : List BinaryName} {t : TypeRef}
    {ts : List TypeRef} {p : Declaration} (h : Settled r next seen (t :: ts))
    (hp : parent? r t = some p) :
    Settled r next (p.name :: seen) (next p) := by
  intro u hu d hd hseen e he
  rcases List.mem_cons.1 hseen with hname | hseen
  · obtain rfl := eq_of_name_eq hd.lookup (lookup_of_parent? hp) hname
    exact absurd (transGen_of_leadsTo hu hd) (hacyclic d)
  · have hlead : LeadsTo r next t d := ⟨p, hp, (transGen_of_leadsTo hu hd).to_reflTransGen⟩
    exact List.mem_cons_of_mem _ (h t List.mem_cons_self d hlead hseen e he)

namespace Explores

variable {seen : List BinaryName} {ts : List TypeRef} {ds : List Declaration}

/-- What stands below a type that was entered is seen once its clauses are done. -/
theorem below_seen {p : Declaration} {below : List Declaration}
    (hinner : ∀ t ∈ next p, ∀ e, LeadsTo r next t e → e.name ∈ after (p.name :: seen) below)
    {e : Declaration} (h : ReflTransGen (Leads r next) p e) :
    e.name ∈ after (p.name :: seen) below := by
  rcases reflTransGen_iff_eq_or_transGen.1 h with rfl | h
  · exact mem_after.2 (.inr List.mem_cons_self)
  · obtain ⟨t, ht, hlead⟩ := exists_leadsTo_of_transGen h
    exact hinner t ht e hlead

theorem settled_rest {t : TypeRef} {p : Declaration} {below : List Declaration}
    (hp : parent? r t = some p) (hsettled : Settled r next seen (t :: ts))
    (inner : Explores r next (p.name :: seen) (next p) below)
    (hinner : ∀ t ∈ next p, ∀ e, LeadsTo r next t e → e.name ∈ after (p.name :: seen) below) :
    Settled r next (after (p.name :: seen) below) ts := by
  intro u hu d hd hseen e he
  rcases mem_after.1 hseen with ⟨b, hb, hname⟩ | hseen
  · obtain ⟨w, hw, hlead⟩ := inner.leadsTo hb
    obtain rfl := eq_of_name_eq hlead.lookup hd.lookup hname
    exact hinner w hw e (hlead.trans he)
  · rcases List.mem_cons.1 hseen with hname | hseen
    · obtain rfl := eq_of_name_eq hd.lookup (lookup_of_parent? hp) hname
      exact below_seen hinner he
    · have := hsettled.tail u hu d hd hseen e he
      exact mem_after.2 (.inr (List.mem_cons_of_mem _ this))

/-- A walk over settled clauses sees everything that they lead to. -/
theorem finished (hacyclic : Acyclic r next) (h : Explores r next seen ts ds)
    (hsettled : Settled r next seen ts) :
    ∀ t ∈ ts, ∀ e, LeadsTo r next t e → e.name ∈ after seen ds := by
  induction h with
  | done =>
    intro t ht
    cases ht
  | @pass seen t ts ds hseen _ ih =>
    intro u hu e he
    rcases List.mem_cons.1 hu with rfl | hu
    · obtain ⟨p, hp, hreach⟩ := he
      have := hsettled u List.mem_cons_self p ⟨p, hp, .refl⟩ (hseen p hp) e hreach
      exact mem_after.2 (.inr this)
    · exact ih hsettled.tail u hu e he
  | @enter seen t p ts below ds hp _ inner _ ihinner ihrest =>
    -- the walk below `p` is done first; what it has seen settles the clauses that wait
    have hinner := ihinner (hsettled.inner hacyclic hp)
    have hrest := ihrest (settled_rest hp hsettled inner hinner)
    intro u hu e he
    rw [List.cons_append, after_cons, after_append]
    rcases List.mem_cons.1 hu with rfl | hu
    · exact mem_after.2 (.inr (below_seen hinner (he.reaches hp)))
    · exact hrest u hu e he

end Explores

/-! ## Types before their subtypes -/

/-- Some clause leads to `c`, and no clause up to it leads to `d`. -/
def Precedes (r : Registry) (next : Declaration → List TypeRef) (ts : List TypeRef)
    (c d : Declaration) : Prop :=
  ∃ us t ws, ts = us ++ t :: ws ∧ LeadsTo r next t c ∧ ∀ u ∈ us ++ [t], ¬ LeadsTo r next u d

theorem Precedes.cons {t : TypeRef} {ts : List TypeRef} {c d : Declaration}
    (h : Precedes r next ts c d) (ht : ¬ LeadsTo r next t d) : Precedes r next (t :: ts) c d := by
  obtain ⟨us, u, ws, rfl, hu, hfree⟩ := h
  refine ⟨t :: us, u, ws, rfl, hu, ?_⟩
  intro w hw
  rcases List.mem_cons.1 hw with rfl | hw
  · exact ht
  · exact hfree w hw

theorem precedes_head {t : TypeRef} {ts : List TypeRef} {c d : Declaration}
    (hc : LeadsTo r next t c) (hd : ¬ LeadsTo r next t d) : Precedes r next (t :: ts) c d :=
  ⟨[], t, ts, rfl, hc, fun _ hu => List.mem_singleton.1 hu ▸ hd⟩

/-- Clauses, or those of a type that they lead to and that leads to `d`, name `c` first. -/
def NamesFirst (r : Registry) (next : Declaration → List TypeRef) (ts : List TypeRef)
    (c d : Declaration) : Prop :=
  Precedes r next ts c d ∨ ∃ x, (∃ t ∈ ts, LeadsTo r next t x) ∧ TransGen (Leads r next) x d ∧
    Precedes r next (next x) c d

theorem NamesFirst.cons {t : TypeRef} {ts : List TypeRef} {c d : Declaration}
    (h : NamesFirst r next ts c d) (ht : ¬ LeadsTo r next t d) :
    NamesFirst r next (t :: ts) c d := by
  rcases h with hprec | ⟨x, ⟨u, hu, hlead⟩, hx⟩
  · exact .inl (hprec.cons ht)
  · exact .inr ⟨x, ⟨u, List.mem_cons_of_mem _ hu, hlead⟩, hx⟩

/-- What the clauses of `p` name first, a clause that leads to `p` does. If `p` leads to `d` it is
`p` that names `c` first, and if not the clause leads to `c` alone. -/
theorem NamesFirst.below {t : TypeRef} {ts : List TypeRef} {c d p : Declaration}
    (h : NamesFirst r next (next p) c d) (hp : parent? r t = some p) (hne : p ≠ d) :
    NamesFirst r next (t :: ts) c d := by
  rcases h with hprec | ⟨x, ⟨u, hu, hlead⟩, hx⟩
  · by_cases hpd : TransGen (Leads r next) p d
    · exact .inr ⟨p, ⟨t, List.mem_cons_self, p, hp, .refl⟩, hpd, hprec⟩
    · obtain ⟨us, u, ws, hsplit, hlead, -⟩ := hprec
      have hu : u ∈ next p := hsplit ▸ List.mem_append_right _ List.mem_cons_self
      refine .inl (precedes_head ⟨p, hp, (transGen_of_leadsTo hu hlead).to_reflTransGen⟩ fun h => ?_)
      rcases reflTransGen_iff_eq_or_transGen.1 (h.reaches hp) with rfl | h
      · exact hne rfl
      · exact hpd h
  · have hpx : ReflTransGen (Leads r next) p x := (transGen_of_leadsTo hu hlead).to_reflTransGen
    exact .inr ⟨x, ⟨t, List.mem_cons_self, p, hp, hpx⟩, hx⟩

/-- If a walk enters `c` and has not entered its subtype `d` before, then the clauses of the walk,
or those of a type that they lead to, name `c` first. The induction follows the tree of the walk:
`c` is the type that is entered at once, or stands below it, or is entered after all of that. -/
theorem Explores.precedes (hacyclic : Acyclic r next) {c d : Declaration}
    (hsub : TransGen (Leads r next) d c) (hd : r.lookup d.name = some d)
    {seen : List BinaryName} {ts : List TypeRef}
    {ds : List Declaration} (h : Explores r next seen ts ds) (hsettled : Settled r next seen ts)
    (hseen : d.name ∉ seen) (hfirst : ComesFirst c d ds) : NamesFirst r next ts c d := by
  induction h with
  | done => cases hfirst
  | @pass seen t ts ds hpass _ ih =>
    -- what a clause leads to that is passed has been seen
    refine (ih hsettled.tail hseen hfirst).cons ?_
    rintro ⟨p, hp, hreach⟩
    exact hseen (hsettled t List.mem_cons_self p ⟨p, hp, .refl⟩ (hpass p hp) d hreach)
  | @enter seen t p ts below ds hp _ inner _ ihinner ihrest =>
    have hsettled' := hsettled.inner hacyclic hp
    have hinner := inner.finished hacyclic hsettled'
    rcases hfirst with rfl | ⟨hne, hfirst⟩
    · -- `c` is entered at once, and does not lead back to its subtype
      refine .inl (precedes_head ⟨p, hp, .refl⟩ fun hlead => ?_)
      exact hacyclic d (hsub.trans_left (hlead.reaches hp))
    have hname : d.name ≠ p.name := fun h => hne (eq_of_name_eq (lookup_of_parent? hp) hd h.symm)
    rcases comesFirst_append.1 hfirst with hfirst | ⟨hbelow, hfirst⟩
    · -- entered below `p`, from whose clauses the walk has gone on
      have hseen' : d.name ∉ p.name :: seen := by simp [hname, hseen]
      exact (ihinner hsettled' hseen' hfirst).below hp hne
    · -- entered after everything below `p`, so `p` does not lead to `d`
      have hseen' : d.name ∉ after (p.name :: seen) below := by
        rw [mem_after, List.mem_cons]
        rintro (⟨b, hb, hbname⟩ | hname' | hseen')
        · obtain ⟨u, -, hlead⟩ := inner.leadsTo hb
          exact hbelow (eq_of_name_eq hlead.lookup hd hbname ▸ hb)
        · exact hname hname'
        · exact hseen hseen'
      refine (ihrest (settled_rest hp hsettled inner hinner) hseen' hfirst).cons fun hlead => ?_
      exact hseen' (below_seen hinner (hlead.reaches hp))

/-- The supertypes of `x` name one that leads to `c` before any that leads to `d`. -/
def ListsFirst (r : Registry) (x c d : Declaration) : Prop :=
  ∃ us t ws, x.supertypes = us ++ t :: ws ∧ LeadsTo r Declaration.supertypes t c ∧
    (∀ u ∈ us ++ [t], ¬ LeadsTo r Declaration.supertypes u d) ∧
    ∃ w ∈ ws, LeadsTo r Declaration.supertypes w d

theorem ListsFirst.of_precedes {x c d : Declaration} (hx : TransGen (Parent r) x d)
    (h : Precedes r Declaration.supertypes x.supertypes c d) : ListsFirst r x c d := by
  obtain ⟨us, t, ws, hsplit, hc, hfree⟩ := h
  refine ⟨us, t, ws, hsplit, hc, hfree, ?_⟩
  obtain ⟨w, hw, hlead⟩ := exists_leadsTo_of_transGen hx
  rw [hsplit, List.append_cons, List.mem_append] at hw
  exact ⟨w, hw.resolve_left fun h => hfree w h hlead, hlead⟩

theorem acyclic_parent (hvalid : Inheritance.validate r = .ok ()) :
    Acyclic r Declaration.supertypes := by
  intro d hcycle
  have hdecl : ∀ a b, Parent r a b → b ∈ r.declarations := by
    rintro a b ⟨t, -, hb⟩
    exact Registry.mem_of_lookup (lookup_of_parent? hb)
  have hd : d ∈ r.declarations := by
    obtain ⟨e, -, hed⟩ := TransGen.tail'_iff.1 hcycle
    exact hdecl e d hed
  -- a cycle of declarations is one of their names
  have hlift : ∀ e, TransGen (Parent r) d e → TransGen (Inheritance.Extends r) d.name e.name := by
    intro e he
    induction he with
    | single hp => exact .single (Inheritance.extends_of_parent hd hp)
    | @tail b e hb hp ih =>
      obtain ⟨a, -, hab⟩ := TransGen.tail'_iff.1 hb
      exact ih.tail (Inheritance.extends_of_parent (hdecl a b hab) hp)
  exact Inheritance.acyclic_of_validate hvalid d.name (hlift d hcycle)

/-- Over a valid registry, a type is entered before its subtype only if some type that the target
inherits from, or the target, names the two in that order. -/
theorem exists_listsFirst_of_comesFirst (hvalid : Inheritance.validate r = .ok ())
    {target c d : Declaration} (htarget : r.lookup target.name = some target)
    (hd : ReflTransGen (Parent r) target d) (hsub : TransGen (Parent r) d c)
    (hfirst : ComesFirst c d (preorder r target)) :
    ∃ x, ReflTransGen (Parent r) target x ∧ ListsFirst r x c d := by
  have hacyclic := acyclic_parent hvalid
  rcases hfirst with rfl | ⟨hne, hfirst⟩
  · exact absurd (hsub.trans_left hd) (hacyclic d)
  -- at first the walk has seen the target alone, to which nothing leads back
  have hexplores := explores_visited r Declaration.supertypes target
  have hsettled : Settled r Declaration.supertypes [target.name] target.supertypes := by
    intro t ht e he hname
    obtain rfl := eq_of_name_eq he.lookup htarget (List.mem_singleton.1 hname)
    exact absurd (transGen_of_leadsTo ht he) (hacyclic e)
  have hlookup := lookup_of_reachable htarget hd
  have hseen : d.name ∉ [target.name] := fun h =>
    hne (eq_of_name_eq htarget hlookup (List.mem_singleton.1 h).symm)
  rcases hexplores.precedes hacyclic hsub hlookup hsettled hseen hfirst with
    hprec | ⟨x, ⟨t, ht, hlead⟩, hxd, hprec⟩
  · -- it is the target that names the two, for `d` is below it
    have htd := (reflTransGen_iff_eq_or_transGen.1 hd).resolve_left (Ne.symm hne)
    exact ⟨target, .refl, .of_precedes htd hprec⟩
  · exact ⟨x, (transGen_of_leadsTo ht hlead).to_reflTransGen, .of_precedes hxd hprec⟩

end Hierarchy

end StubGen
