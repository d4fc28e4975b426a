import StubGen.Proofs.BinaryName.Grammar
import StubGen.Registry.Load
import Mathlib

/-!
# A registry over its whole life

A registry starts empty, and then declarations are inserted, one at a time or as the declarations of
a metadata text. Some of this fails: a name may be refused, and a text may be unreadable or be
refused in its midst. Whatever is tried, the registry is told by the declarations that got in, in
the order in which they did.

Main results:

* `names_putAll`, `lookup_putAll` — the names in order and what is found after declarations are put;
* `insertAll_eq`, `insertAll_of_refused` — of a list, what stands before the first refused name
  gets in;
* `after_eq` — a registry is what the inserted declarations make it;
* `invariant_after` — what holds of a registry after any changes.
-/

namespace StubGen.Registry

variable {r : Registry} {d e : Declaration} {ds : List Declaration} {n : BinaryName}

/-! ## Declarations that are put -/

/-- The registry with declarations put in, one after the other. -/
abbrev putAll (r : Registry) (ds : List Declaration) : Registry := ds.foldl put r

/-- A new name goes behind those that are there, and a name that is there keeps its place. -/
theorem names_put (r : Registry) (d : Declaration) :
    (r.put d).names = if d.name ∈ r.names then r.names else r.names ++ [d.name] := by
  obtain ⟨es⟩ := r
  show (putIn d es).map (·.name) =
    if d.name ∈ es.map (·.name) then es.map (·.name) else es.map (·.name) ++ [d.name]
  -- the induction is on the entries, which a put goes through until it meets the name
  induction es with
  | nil => rfl
  | cons e es ih =>
    by_cases hname : e.name = d.name
    · simp [putIn, hname]
    · rw [putIn, if_neg hname, List.map_cons, List.map_cons, ih]
      by_cases hd : d.name ∈ es.map (·.name)
      · rw [if_pos hd, if_pos (List.mem_cons_of_mem _ hd)]
      · rw [if_neg hd, if_neg (List.not_mem_cons_of_ne_of_not_mem (Ne.symm hname) hd),
          List.cons_append]

theorem names_prefix_putAll (r : Registry) (ds : List Declaration) :
    r.names <+: (r.putAll ds).names := by
  induction ds generalizing r with
  | nil => exact List.prefix_rfl
  | cons d ds ih =>
    refine List.IsPrefix.trans ?_ (ih (r.put d))
    rw [names_put]
    split
    · exact List.prefix_rfl
    · exact List.prefix_append _ _

/-- The names stand as they first came. -/
theorem names_putAll (ds : List Declaration) :
    (empty.putAll ds).names = (ds.map (·.name)).eraseDups := by
  -- on the end of the list: whether `d` adds a name depends on all that was put before it
  induction ds using List.reverseRecOn with
  | nil => rfl
  | append_singleton ds d ih =>
    rw [putAll, List.foldl_concat, names_put, ih, List.map_append, List.map_singleton,
      List.eraseDups_append]
    by_cases hd : d.name ∈ ds.map (·.name)
    · rw [if_pos (List.mem_eraseDups.2 hd), List.removeAll,
        List.filter_cons_of_neg (by simpa using hd), List.filter_nil, List.eraseDups_nil,
        List.append_nil]
    · rw [if_neg (mt List.mem_eraseDups.1 hd), List.removeAll,
        List.filter_cons_of_pos (by simpa using hd), List.filter_nil]
      rfl

theorem nodup_names_put (h : r.names.Nodup) (d : Declaration) : (r.put d).names.Nodup := by
  rw [names_put]
  split
  · exact h
  · rename_i hd
    exact List.nodup_append.2 ⟨h, List.nodup_singleton _, fun a ha b hb hab =>
      hd (List.mem_singleton.1 hb ▸ hab ▸ ha)⟩

theorem nodup_names_putAll (h : r.names.Nodup) (ds : List Declaration) :
    (r.putAll ds).names.Nodup := by
  induction ds generalizing r with
  | nil => exact h
  | cons d ds ih => exact ih (nodup_names_put h d)

/-- The last declaration of a name is what is found. -/
theorem lookup_putAll (r : Registry) (ds : List Declaration) (n : BinaryName) :
    (r.putAll ds).lookup n = (ds.reverse.find? fun d => d.name = n).or (r.lookup n) := by
  -- on the end of the list, as the last declaration of a name wins
  induction ds using List.reverseRecOn with
  | nil => rfl
  | append_singleton ds d ih =>
    rw [putAll, List.foldl_concat, lookup_put, ih, List.reverse_append, List.reverse_singleton,
      List.singleton_append]
    by_cases hd : d.name = n
    · rw [if_pos hd, List.find?_cons_of_pos (by simpa using hd), Option.some_or]
    · rw [if_neg hd, List.find?_cons_of_neg (by simpa using hd)]

theorem lookup_putAll_of_not_mem (hn : n ∉ ds.map (·.name)) :
    (r.putAll ds).lookup n = r.lookup n := by
  have hnone : ds.reverse.find? (fun d => d.name = n) = none := by
    rw [List.find?_eq_none]
    intro d hd hname
    exact hn (List.mem_map.2 ⟨d, List.mem_reverse.1 hd, of_decide_eq_true hname⟩)
  rw [lookup_putAll, hnone, Option.none_or]

/-- Under different names, every declaration is found under its own. -/
theorem lookup_of_mem (h : r.names.Nodup) (hd : d ∈ r.declarations) :
    r.lookup d.name = some d := by
  obtain ⟨e, he⟩ := mem_names_iff.1 (List.mem_map_of_mem (f := (·.name)) hd)
  rw [he, List.inj_on_of_nodup_map h (mem_of_lookup he) hd (name_of_lookup he)]

/-! ## Declarations that are inserted -/

/-- The declarations before the first whose name cannot be declared. -/
def accepted (ds : List Declaration) : List Declaration :=
  ds.takeWhile fun d => d.name.IsDeclarable

theorem isDeclarable_of_mem_accepted (h : d ∈ accepted ds) : d.name.IsDeclarable := by
  simpa using List.mem_takeWhile_imp h

theorem accepted_of_forall (h : ∀ d ∈ ds, d.name.IsDeclarable) : accepted ds = ds :=
  List.takeWhile_eq_self_iff.2 fun d hd => decide_eq_true (h d hd)

theorem insertAll_eq (r : Registry) (ds : List Declaration) :
    (r.insertAll ds).2 = r.putAll (accepted ds) := by
  induction ds generalizing r with
  | nil => rfl
  | cons d ds ih =>
    -- inserting goes on as long as the names can be declared, so the cases are those of `takeWhile`
    by_cases hd : d.name.IsDeclarable
    · rw [insertAll, r.insert_of_isDeclarable hd, accepted, List.takeWhile_cons_of_pos (by simpa)]
      exact ih (r.put d)
    · obtain ⟨e, -, he⟩ := r.insert_of_not_isDeclarable hd
      rw [insertAll, he, accepted, List.takeWhile_cons_of_neg (by simpa)]
      rfl

theorem insertAll_of_forall (r : Registry) (h : ∀ d ∈ ds, d.name.IsDeclarable) :
    r.insertAll ds = (.ok (), r.putAll ds) := by
  induction ds generalizing r with
  | nil => rfl
  | cons d ds ih =>
    rw [insertAll, r.insert_of_isDeclarable (h d List.mem_cons_self)]
    exact ih (r.put d) fun e he => h e (List.mem_cons_of_mem _ he)

/-- The first refused name ends a list, and what stands before it has got in. -/
theorem insertAll_of_refused (r : Registry) {rest : List Declaration} {x : RegistryError}
    (hds : ∀ b ∈ ds, b.name.IsDeclarable) (hd : refusal? d.name = some x) :
    r.insertAll (ds ++ d :: rest) = (.error x, r.putAll ds) := by
  induction ds generalizing r with
  | nil => rw [List.nil_append, insertAll, insert, hd]; rfl
  | cons b ds ih =>
    rw [List.cons_append, insertAll, r.insert_of_isDeclarable (hds b List.mem_cons_self)]
    exact ih (r.put b) fun e he => hds e (List.mem_cons_of_mem _ he)

/-! ## Changes -/

/-- The declarations of a text are inserted as a list of them is. -/
theorem addText_of_decoded (r : Registry) {source : String}
    (h : declarationsOf source = .ok ds) :
    r.addText source =
      (match (r.insertAll ds).1 with
        | .ok () => .ok ds.length
        | .error e => .error (.refused e), (r.insertAll ds).2) := by
  rewrite [addText, h]
  rfl

/-- A change of a registry from outside. -/
inductive Change
  | insert (d : Declaration)
  /-- The declarations of a metadata text are added. -/
  | text (source : String)

/-- The declarations that a change brings along. -/
def Change.declarations : Change → List Declaration
  | .insert d => [d]
  | .text source => (declarationsOf source).toOption.getD []

/-- The registry after a change has been tried. -/
def apply (r : Registry) : Change → Registry
  | .insert d =>
    match r.insert d with
    | .ok r' => r'
    | .error _ => r
  | .text source => (r.addText source).2

/-- The registry after changes from the start. -/
def after (changes : List Change) : Registry := changes.foldl apply .empty

/-- The declarations that changes insert, in order. -/
def inserted (changes : List Change) : List Declaration :=
  changes.flatMap fun c => accepted c.declarations

/-- A change puts in the declarations it is about, up to the first one that is refused: the one
declaration, those that a text decodes to, or none. -/
theorem apply_eq (r : Registry) (c : Change) : r.apply c = r.putAll (accepted c.declarations) := by
  cases c with
  | insert d =>
    show (match r.insert d with
      | .ok r' => r'
      | .error _ => r) = r.putAll (accepted [d])
    by_cases hd : d.name.IsDeclarable
    · rw [r.insert_of_isDeclarable hd, accepted, List.takeWhile_cons_of_pos (by simpa)]
      rfl
    · obtain ⟨e, -, he⟩ := r.insert_of_not_isDeclarable hd
      rw [he, accepted, List.takeWhile_cons_of_neg (by simpa)]
      rfl
  | text source =>
    show (r.addText source).2 = r.putAll (accepted (Change.text source).declarations)
    cases hds : declarationsOf source with
    | error e =>
      rw [addText_of_undecodable hds, Change.declarations, hds]
      rfl
    | ok ds =>
      rw [addText_of_decoded r hds, Change.declarations, hds]
      exact insertAll_eq r ds

theorem after_eq (changes : List Change) : after changes = empty.putAll (inserted changes) := by
  induction changes using List.reverseRecOn with
  | nil => rfl
  | append_singleton cs c ih =>
    rw [after, List.foldl_concat, ← after, ih, apply_eq, inserted, inserted, List.flatMap_append,
      List.flatMap_singleton, putAll, putAll, putAll, List.foldl_append]

theorem inserted_append_inserts (changes : List Change) (h : ∀ d ∈ ds, d.name.IsDeclarable) :
    inserted (changes ++ ds.map .insert) = inserted changes ++ ds := by
  -- each of the inserts brings along its one declaration, which is not refused
  have hinserted : inserted (ds.map .insert) = ds := by
    rw [inserted, List.flatMap_map]
    refine (List.flatMap_congr fun d hd => ?_).trans (List.flatMap_singleton' ds)
    exact accepted_of_forall fun e he => List.mem_singleton.1 he ▸ h d hd
  rw [inserted, List.flatMap_append, ← inserted, ← inserted, hinserted]

/-- Declarations that can be declared get in one by one. -/
theorem after_append_inserts (changes : List Change) (h : ∀ d ∈ ds, d.name.IsDeclarable) :
    after (changes ++ ds.map .insert) = (after changes).putAll ds := by
  rw [after_eq, after_eq, inserted_append_inserts changes h, putAll, putAll, putAll,
    List.foldl_append]

theorem nodup_names_after (changes : List Change) : (after changes).names.Nodup := by
  rw [after_eq]
  exact nodup_names_putAll (r := .empty) List.nodup_nil _

theorem lookup_after (changes : List Change) (n : BinaryName) :
    (after changes).lookup n = (inserted changes).reverse.find? fun d => d.name = n := by
  rw [after_eq, lookup_putAll]
  exact Option.or_none

/-- Nothing is found under a name that cannot be declared. -/
theorem isDeclarable_of_lookup_after {changes : List Change}
    (h : (after changes).lookup n = some d) : n.IsDeclarable := by
  rw [lookup_after] at h
  obtain ⟨c, -, hd⟩ := List.mem_flatMap.1 (List.mem_reverse.1 (List.mem_of_find?_eq_some h))
  have hname : d.name = n := by simpa using List.find?_some h
  exact hname ▸ isDeclarable_of_mem_accepted hd

/-- A text with a declaration that is refused leaves what inserting those before it would leave. -/
theorem addText_of_refused (changes : List Change) {source : String} {rest : List Declaration}
    (hsource : declarationsOf source = .ok (ds ++ d :: rest))
    (hds : ∀ b ∈ ds, b.name.IsDeclarable) {x : RegistryError} (hd : refusal? d.name = some x) :
    (after changes).addText source =
      (.error (.refused x), after (changes ++ ds.map .insert)) := by
  have hall : (after changes).insertAll (ds ++ d :: rest) = (.error x, (after changes).putAll ds) :=
    insertAll_of_refused _ hds hd
  rw [addText_of_decoded _ hsource, hall, after_append_inserts changes hds]

theorem addText_of_forall (changes : List Change) {source : String}
    (hsource : declarationsOf source = .ok ds) (hds : ∀ b ∈ ds, b.name.IsDeclarable) :
    (after changes).addText source = (.ok ds.length, after (changes ++ ds.map .insert)) := by
  rw [addText_of_decoded _ hsource, (after changes).insertAll_of_forall hds,
    after_append_inserts changes hds]

/-- After any changes, some of which may have failed: what is found under a name has that name, and
every declaration of the registry is found; the names are those that can be declared, and exactly
these are accepted; the last declaration inserted under a name is the one found; every name stands
once, where it was first inserted; and a text gets in up to the first of its declarations that is
refused, with everything else left as it was. -/
theorem invariant_after (changes : List Change) :
    let r := after changes
    (∀ n d, r.lookup n = some d → d.name = n ∧ n.IsDeclarable) ∧
    (∀ d ∈ r.declarations, r.lookup d.name = some d) ∧
    (∀ d, (∃ r', r.insert d = .ok r') ↔ d.name.IsDeclarable) ∧
    (∀ n, r.lookup n = (inserted changes).reverse.find? fun d => d.name = n) ∧
    (r.names.Nodup ∧ r.names = ((inserted changes).map (·.name)).eraseDups) ∧
    (∀ source ds, declarationsOf source = .ok ds → (∀ d ∈ ds, d.name.IsDeclarable) →
      r.addText source = (.ok ds.length, after (changes ++ ds.map .insert))) ∧
    ∀ source before d rest, declarationsOf source = .ok (before ++ d :: rest) →
      (∀ b ∈ before, b.name.IsDeclarable) → ¬ d.name.IsDeclarable →
      ∃ e r', r.addText source = (.error (.refused e), r') ∧
        r' = after (changes ++ before.map .insert) ∧
        inserted (changes ++ before.map .insert) = inserted changes ++ before ∧
        r.names <+: r'.names ∧ ∀ n, n ∉ before.map (·.name) → r'.lookup n = r.lookup n := by
  intro r
  refine ⟨fun n d h => ⟨name_of_lookup h, isDeclarable_of_lookup_after h⟩,
    fun d hd => lookup_of_mem (nodup_names_after changes) hd, fun d => exists_insert_iff,
    lookup_after changes, ⟨nodup_names_after changes, ?_⟩,
    fun source ds hsource hds => addText_of_forall changes hsource hds, ?_⟩
  · show (after changes).names = _
    rw [after_eq, names_putAll]
  · -- the declarations before `d` are inserted, and the text is given up at `d`
    intro source before d rest hsource hbefore hd
    obtain ⟨e, he, -⟩ := r.insert_of_not_isDeclarable hd
    refine ⟨e, _, addText_of_refused changes hsource hbefore he, rfl,
      inserted_append_inserts changes hbefore, ?_⟩
    rw [after_append_inserts changes hbefore]
    exact ⟨names_prefix_putAll r before, fun n hn => lookup_putAll_of_not_mem hn⟩

end StubGen.Registry

/-! ## A type that is declared again, and a text that is refused in its midst -/

namespace StubGen.Redeclaring

open Registry (Change after inserted declarationsOf)

def api : Declaration := { name := ⟨"Api"⟩ }

def base : Declaration := { name := ⟨"p.Base"⟩ }

/-- `Api` as an interface. -/
def reworked : Declaration := { api with kind := .interface }

def nameless : Declaration := { name := ⟨"p..Api"⟩ }

/-- A text that declares `Api` a second time. -/
def reworking : String := "[[types]]\nname='p.Base'\n[[types]]\nname='Api'\nkind='interface'\n"

/-- `Api` is a class, `p..Api` is refused, and then `Api` becomes an interface. -/
def changes : List Change := [.insert api, .insert nameless, .text reworking]

def first : Declaration := { name := ⟨"First"⟩ }

def primitive : Declaration := { name := ⟨"int"⟩ }

def last : Declaration := { name := ⟨"Last"⟩ }

/-- The second of these three declarations is refused. -/
def source : String := "[[types]]\nname='First'\n[[types]]\nname='int'\n[[types]]\nname='Last'\n"

theorem declarationsOf_reworking : declarationsOf reworking = .ok [base, reworked] := by cbv

theorem declarationsOf_source : declarationsOf source = .ok ([first] ++ primitive :: [last]) := by
  cbv

theorem inserted_changes : inserted changes = [api, base, reworked] := by
  have hreworking : (Change.text reworking).declarations = [base, reworked] :=
    congrArg (fun r => r.toOption.getD []) declarationsOf_reworking
  show Registry.accepted [api] ++ (Registry.accepted [nameless] ++
    (Registry.accepted (Change.text reworking).declarations ++ [])) = _
  rw [hreworking]
  decide +kernel

theorem invariant_after_of_redeclared :
    let r := after changes
    (r.lookup ⟨"Api"⟩ = some reworked ∧ r.names = [⟨"Api"⟩, ⟨"p.Base"⟩]) ∧
    (declarationsOf source = .ok ([first] ++ primitive :: [last]) ∧
      (∀ b ∈ [first], b.name.IsDeclarable) ∧ ¬ primitive.name.IsDeclarable) ∧
    ∃ e r', r.addText source = (.error (.refused e), r') ∧
      r'.lookup ⟨"First"⟩ = some first ∧ r'.lookup ⟨"Last"⟩ = none ∧
      r'.lookup ⟨"Api"⟩ = some reworked := by
  intro r
  obtain ⟨-, -, -, hlookup, ⟨-, hnames⟩, -, hrefused⟩ := Registry.invariant_after changes
  have hfirst : ∀ b ∈ [first], b.name.IsDeclarable := by decide +kernel
  have hprimitive : ¬ primitive.name.IsDeclarable := by decide +kernel
  obtain ⟨e, r', hadd, rfl, hinserted, -, hothers⟩ :=
    hrefused source [first] primitive [last] declarationsOf_source hfirst hprimitive
  -- the registry after the failed text is one after changes, too
  obtain ⟨-, -, -, hlookup', -⟩ := Registry.invariant_after (changes ++ [first].map .insert)
  rw [inserted_changes] at hlookup hnames
  have hapi : r.lookup ⟨"Api"⟩ = some reworked := (hlookup _).trans (by decide)
  refine ⟨⟨hapi, hnames.trans (by decide)⟩, ⟨declarationsOf_source, hfirst, hprimitive⟩, e, _, hadd,
    ?_, ?_, ?_⟩
  · rw [hlookup', hinserted, inserted_changes]
    decide
  · rw [hothers _ (by decide), hlookup]
    decide
  · rw [hothers _ (by decide), hapi]

end StubGen.Redeclaring
