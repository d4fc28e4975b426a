import StubGen.FilePath
import StubGen.Proofs.Pieces

/-!
# The directories above a path

The components of a path name the directories on the way to it, one after the other. So each
directory above the path is the next one further out with a segment appended, until what is left is
the root, the directory that relative paths start from, or no path at all.

Main results:

* `segments_join`, `components_join` — appending a segment adds it at the end of both readings;
* `ancestors_of_parent?` — the directories above a path are those from its parent up;
* `ancestors_of_noParents` — the directories above a path without `..` ascend one name at a time.
-/

namespace StubGen

namespace FilePath

/-! ## Appending a name -/

/-- A text that counts as one component of a path: a name or `..`. -/
structure IsSegment (s : String) : Prop where
  ne_empty : s ≠ ""
  ne_dot : s ≠ "."
  noSeparator : '/' ∉ s.toList

variable {p : FilePath} {n : String}

theorem isAbsolute_of_isSegment (hn : IsSegment n) : (⟨n⟩ : FilePath).isAbsolute = false := by
  rw [isAbsolute, beq_eq_false_iff_ne]
  intro hhead
  exact hn.noSeparator (List.mem_of_mem_head? hhead)

theorem join_of_isSegment (p : FilePath) (hn : IsSegment n) :
    p.join ⟨n⟩ =
      if p.isEmpty || p.endsWithSlash then ⟨p.text ++ n⟩ else ⟨p.text ++ "/" ++ n⟩ := by
  rw [join, if_neg (by simp [isAbsolute_of_isSegment hn])]

/-- The name stands alone, or behind the separator that is there, or behind a new one. -/
theorem chars_join (p : FilePath) (hn : IsSegment n) :
    p.chars = [] ∧ (p.join ⟨n⟩).chars = n.toList ∨
      (∃ xs, p.chars = xs ++ ['/'] ∧ (p.join ⟨n⟩).chars = xs ++ '/' :: n.toList) ∨
      p.chars ≠ [] ∧ (p.join ⟨n⟩).chars = p.chars ++ '/' :: n.toList := by
  rw [join_of_isSegment p hn]
  by_cases hempty : p.isEmpty = true
  · have hchars : p.chars = [] := String.toList_eq_nil_iff.2 (eq_of_beq hempty)
    refine .inl ⟨hchars, ?_⟩
    rw [if_pos (by simp [hempty]), chars, String.toList_append]
    exact congrArg (· ++ n.toList) hchars
  by_cases hslash : p.endsWithSlash = true
  · obtain ⟨xs, hxs⟩ := List.getLast?_eq_some_iff.1 (eq_of_beq hslash)
    refine .inr (.inl ⟨xs, hxs, ?_⟩)
    rw [if_pos (by simp [hslash]), chars, String.toList_append]
    exact (congrArg (· ++ n.toList) hxs).trans (by simp)
  · refine .inr (.inr ⟨?_, ?_⟩)
    · exact fun h => hempty (beq_iff_eq.2 (String.toList_eq_nil_iff.1 h))
    · rw [if_neg (by simp [hempty, hslash])]
      simp [chars]

theorem endsWithSlash_join (p : FilePath) (hn : IsSegment n) :
    (p.join ⟨n⟩).endsWithSlash = false := by
  rw [endsWithSlash, beq_eq_false_iff_ne]
  -- the path ends in the name it was joined with, and that does not end in a separator
  intro hlast
  obtain ⟨ys, hys⟩ := List.getLast?_eq_some_iff.1 hlast
  obtain ⟨zs, z, hz⟩ : ∃ zs z, n.toList = zs ++ [z] := by
    have hne : n.toList ≠ [] := fun h => hn.ne_empty (String.toList_eq_nil_iff.1 h)
    exact ⟨_, _, (List.dropLast_append_getLast hne).symm⟩
  obtain ⟨as, has⟩ : ∃ as, (p.join ⟨n⟩).chars = as ++ n.toList := by
    rcases chars_join p hn with ⟨-, h⟩ | ⟨xs, -, h⟩ | ⟨-, h⟩
    · exact ⟨[], h⟩
    · exact ⟨xs ++ ['/'], by simpa using h⟩
    · exact ⟨p.chars ++ ['/'], by simpa using h⟩
  rw [has, hz, ← List.append_assoc] at hys
  obtain ⟨-, hzslash⟩ := List.append_inj' hys rfl
  refine hn.noSeparator ?_
  rw [hz, List.mem_append, hzslash]
  exact .inr List.mem_cons_self

theorem isAbsolute_join (p : FilePath) (hn : IsSegment n) :
    (p.join ⟨n⟩).isAbsolute = p.isAbsolute := by
  rcases chars_join p hn with ⟨hp, h⟩ | ⟨xs, hp, h⟩ | ⟨hp, h⟩
  · have hname := isAbsolute_of_isSegment hn
    rw [isAbsolute] at hname ⊢
    rw [h, isAbsolute, hp]
    exact hname
  · rw [isAbsolute, isAbsolute, h, hp]
    cases xs <;> rfl
  · rw [isAbsolute, isAbsolute, h, List.head?_append_of_ne_nil _ hp]

theorem segments_join (p : FilePath) (hn : IsSegment n) :
    (p.join ⟨n⟩).segments = p.segments ++ [n] := by
  have hname : ((Text.pieces '/' n.toList).filter (!·.isEmpty)).map String.ofList = [n] := by
    have hne : n.toList ≠ [] := fun h => hn.ne_empty (String.toList_eq_nil_iff.1 h)
    rw [Text.pieces_of_not_mem hn.noSeparator, List.filter_cons_of_pos (by simpa using hne),
      List.filter_nil, List.map_singleton, String.ofList_toList]
  rw [segments, segments]
  rcases chars_join p hn with ⟨hp, h⟩ | ⟨xs, hp, h⟩ | ⟨-, h⟩
  · rw [h, hp, hname]
    rfl
  · rw [h, hp, Text.pieces_append, Text.pieces_append, List.filter_append, List.filter_append,
      List.map_append, List.map_append, hname]
    simp [Text.pieces]
  · rw [h, Text.pieces_append, List.filter_append, List.map_append, hname]

/-- The component that a segment other than `.` stands for. -/
def component (segment : String) : PathComponent :=
  if segment == ".." then .parent else .name segment

theorem text_component (n : String) : (component n).text = n := by
  rw [component]
  split
  · rename_i h
    rw [eq_of_beq h]
    rfl
  · rfl

theorem components_join (p : FilePath) (hn : IsSegment n) :
    (p.join ⟨n⟩).components = p.components ++ [component n] := by
  have hhead : ((p.segments ++ [n]).head? == some ".") = (p.segments.head? == some ".") := by
    cases p.segments with
    | nil => simpa using hn.ne_dot
    | cons x xs => rfl
  rw [components, components, isAbsolute_join p hn, segments_join p hn, hhead, List.filter_append,
    List.map_append, ← List.append_assoc]
  simp [hn.ne_dot, component]

/-! ## Paths as trails of segments -/

/-- The components of a path, the last one first. -/
inductive Trail : List PathComponent → Prop
  | here : Trail []
  | root : Trail [.root]
  | current : Trail [.current]
  | segment {cs : List PathComponent} {n : String} (hn : IsSegment n) (outer : Trail cs) :
      Trail (component n :: cs)

theorem isSegment_of_mem_segments {s : String} (hs : s ∈ p.segments) (hdot : s ≠ ".") :
    IsSegment s := by
  obtain ⟨cs, hcs, rfl⟩ := List.mem_map.1 hs
  obtain ⟨hpiece, hne⟩ := List.mem_filter.1 hcs
  refine ⟨?_, hdot, ?_⟩
  · rintro h
    obtain rfl : cs = [] := by simpa using congrArg String.toList h
    cases hne
  · rw [String.toList_ofList]
    exact Text.not_mem_of_mem_pieces hpiece

theorem Trail.append {cs : List PathComponent} (h : Trail cs) {ns : List String}
    (hns : ∀ n ∈ ns, IsSegment n) : Trail ((ns.map component).reverse ++ cs) := by
  induction ns generalizing cs with
  | nil => exact h
  | cons n ns ih =>
    rw [List.map_cons, List.reverse_cons, List.append_assoc]
    refine ih (.segment (hns n List.mem_cons_self) h) fun m hm => ?_
    exact hns m (List.mem_cons_of_mem _ hm)

theorem not_mem_segments_of_noParents (h : .parent ∉ p.components) : ".." ∉ p.segments := by
  intro hdots
  have hfilter : ".." ∈ p.segments.filter (· != ".") := List.mem_filter.2 ⟨hdots, rfl⟩
  exact h (List.mem_append_right _ (List.mem_map.2 ⟨"..", hfilter, rfl⟩))

theorem trail_components (p : FilePath) : Trail p.components.reverse := by
  have hsegment : ∀ s ∈ p.segments.filter (· != "."), IsSegment s := by
    intro s hs
    obtain ⟨hseg, hdot⟩ := List.mem_filter.1 hs
    exact isSegment_of_mem_segments hseg (bne_iff_ne.1 hdot)
  rw [components, List.reverse_append]
  refine Trail.append ?_ hsegment
  split
  · exact .root
  · split
    · exact .current
    · exact .here

theorem isEmpty_join (p : FilePath) (hn : IsSegment n) : (p.join ⟨n⟩).isEmpty = false := by
  rw [isEmpty, beq_eq_false_iff_ne]
  intro hempty
  have hsegments := segments_join p hn
  have hnil : (p.join ⟨n⟩).segments = [] := by rw [segments, chars, hempty]; rfl
  rw [hnil] at hsegments
  exact List.append_ne_nil_of_right_ne_nil _ (List.cons_ne_nil n []) hsegments.symm

/-- A component more at the end is written behind a separator. -/
theorem ofComponents_append_component {cs : List PathComponent} (hcs : cs ≠ [])
    (hroot : cs ≠ [.root]) (n : String) :
    ofComponents (cs ++ [component n]) = ⟨(ofComponents cs).text ++ "/" ++ n⟩ := by
  have hconcat : ∀ ds : List PathComponent, ds ≠ [] →
      "/".intercalate ((ds ++ [component n]).map PathComponent.text) =
        "/".intercalate (ds.map PathComponent.text) ++ "/" ++ n := by
    intro ds hds
    rw [List.map_append, List.map_singleton, text_component,
      String.intercalate_append_of_ne_nil (by simpa using hds) (List.cons_ne_nil _ _),
      String.intercalate_singleton]
  -- how a trail is written depends on its first component, but what is added is at the other end
  match cs, hcs, hroot with
  | .root :: c :: ds, _, _ =>
    have htext := hconcat (c :: ds) (List.cons_ne_nil _ _)
    rw [List.cons_append, ofComponents, htext, ofComponents, ← String.append_assoc,
      ← String.append_assoc]
  | .current :: ds, _, _ => exact congrArg FilePath.mk (hconcat (.current :: ds) (by simp))
  | .parent :: ds, _, _ => exact congrArg FilePath.mk (hconcat (.parent :: ds) (by simp))
  | .name m :: ds, _, _ => exact congrArg FilePath.mk (hconcat (.name m :: ds) (by simp))

theorem ofComponents_singleton (n : String) : ofComponents [component n] = ⟨n⟩ := by
  have hroot : component n ≠ .root := by
    rw [component]
    split <;> simp
  rw [ofComponents]
  · simp [text_component]
  · intro cs h
    exact hroot (List.cons.inj h).1

/-- A segment more at the end of a trail is a segment appended to the path. -/
theorem ofComponents_concat {cs : List PathComponent} (h : Trail cs) (hn : IsSegment n) :
    ofComponents (cs.reverse ++ [component n]) = (ofComponents cs.reverse).join ⟨n⟩ := by
  induction h generalizing n with
  | here =>
    rw [join_of_isSegment _ hn, if_pos (by decide)]
    exact (ofComponents_singleton n).trans (congrArg FilePath.mk String.empty_append.symm)
  | root =>
    rw [join_of_isSegment _ hn, if_pos (by decide)]
    exact congrArg FilePath.mk (by simp [text_component, ofComponents])
  | current =>
    rw [join_of_isSegment _ hn, if_neg (by decide)]
    exact ofComponents_append_component (by decide) (by decide) n
  | @segment cs m hm h ih =>
    have hlast : ofComponents (component m :: cs).reverse = (ofComponents cs.reverse).join ⟨m⟩ := by
      rw [List.reverse_cons, ih hm]
    rw [join_of_isSegment _ hn, hlast, isEmpty_join _ hm, endsWithSlash_join _ hm, ← hlast]
    -- behind a segment there is no root, so a separator comes in between
    refine ofComponents_append_component (by simp) ?_ n
    rw [List.reverse_cons]
    intro hroot
    obtain ⟨-, hname⟩ := List.append_inj' (hroot.trans (List.nil_append _).symm) rfl
    have hname := (List.cons.inj hname).1
    rw [component] at hname
    split at hname <;> cases hname

theorem components_ofComponents {cs : List PathComponent} (h : Trail cs) :
    (ofComponents cs.reverse).components = cs.reverse := by
  induction h with
  | here => rfl
  | root => rfl
  | current => rfl
  | segment hn h ih => rw [List.reverse_cons, ofComponents_concat h hn, components_join _ hn, ih]

theorem ancestors_ofComponents {cs : List PathComponent} (h : Trail cs) :
    (ofComponents cs.reverse).ancestors = ancestors.above cs := by
  rw [ancestors, components_ofComponents h, List.reverse_reverse]

/-- The directories above a trail are the trail without its last component and those above it. -/
theorem above_eq_cons {cs : List PathComponent} (h : Trail cs) {q : FilePath}
    (hq : (ancestors.above cs).head? = some q) :
    ∃ c outer, cs = c :: outer ∧ Trail outer ∧ q = ofComponents outer.reverse ∧
      ancestors.above cs = q :: q.ancestors := by
  cases cs with
  | nil => cases hq
  | cons c outer =>
    -- a trail without its last component is a trail
    have houter : Trail outer := by
      generalize hcs : c :: outer = cs at h
      cases h with
      | here => cases hcs
      | root | current =>
        obtain ⟨-, rfl⟩ := List.cons.inj hcs
        exact .here
      | segment _ houter =>
        obtain ⟨-, rfl⟩ := List.cons.inj hcs
        exact houter
    -- nothing is above the root alone
    by_cases hroot : c = .root ∧ outer = []
    · rw [hroot.1, hroot.2] at hq
      cases hq
    · have habove : ancestors.above (c :: outer) =
          ofComponents outer.reverse :: ancestors.above outer := by
        rw [ancestors.above]
        exact fun hc hnil => hroot ⟨hc, hnil⟩
      rw [habove] at hq ⊢
      obtain rfl := Option.some.inj hq
      exact ⟨c, outer, rfl, houter, rfl, by rw [ancestors_ofComponents houter]⟩

/-- The directories above a path are its parent and those above the parent. -/
theorem ancestors_of_parent? {q : FilePath} (h : p.parent? = some q) :
    p.ancestors = q :: q.ancestors := by
  obtain ⟨_, _, _, _, _, h⟩ := above_eq_cons (trail_components p) h
  exact h

/-- The directories above a path without `..` have none either. -/
theorem noParents_of_mem_ancestors (h : .parent ∉ p.components) {a : FilePath}
    (ha : a ∈ p.ancestors) : .parent ∉ a.components := by
  have habove : ∀ {cs : List PathComponent}, Trail cs → .parent ∉ cs → ∀ a ∈ ancestors.above cs,
      .parent ∉ a.components := by
    intro cs htrail hparent
    induction htrail with
    | here => exact fun a ha => nomatch ha
    | root => exact fun a ha => nomatch ha
    | current =>
      intro a ha
      rw [List.mem_singleton.1 ha]
      decide
    | @segment cs n hn houter ih =>
      -- what is above a segment is the trail without it, and what is above that
      rw [List.mem_cons, not_or] at hparent
      intro a ha
      have hcons : ancestors.above (component n :: cs) =
          ofComponents cs.reverse :: ancestors.above cs := by
        rw [ancestors.above]
        intro hroot
        rw [component] at hroot
        split at hroot <;> cases hroot
      rw [hcons, List.mem_cons] at ha
      rcases ha with rfl | ha
      · rw [components_ofComponents houter, List.mem_reverse]
        exact hparent.2
      · exact ih hparent.2 a ha
  exact habove (trail_components p) (fun hmem => h (List.mem_reverse.1 hmem)) a ha

/-- A path and the directories above it, as far as they may have to be made: each is the next one
with a name appended, up to one that is there anyway. -/
inductive Ascent : FilePath → List FilePath → Prop
  | stop {p : FilePath} {outer : List FilePath} (hp : p.segments = [] ∨ p.segments = ["."]) :
      Ascent p outer
  | step {q : FilePath} {outer : List FilePath} {n : String} (hn : IsSegment n)
      (hdots : n ≠ "..") (above : Ascent q outer) : Ascent (q.join ⟨n⟩) (q :: outer)

/-- Without `..` the components of a path are names that are appended one after the other. -/
theorem ascent_ofComponents {cs : List PathComponent} (h : Trail cs) (hparent : .parent ∉ cs) :
    Ascent (ofComponents cs.reverse) (ancestors.above cs) := by
  induction h with
  | here => exact .stop (.inl rfl)
  | root => exact .stop (.inl rfl)
  | current => exact .stop (.inr rfl)
  | @segment cs n hn h ih =>
    rw [List.mem_cons, not_or] at hparent
    have hdots : n ≠ ".." := by
      rintro rfl
      exact hparent.1 rfl
    have hname : component n = .name n := by simp [component, hdots]
    rw [List.reverse_cons, ofComponents_concat h hn, hname]
    exact .step hn hdots (ih hparent.2)

/-- The directories above a path without `..` ascend, one name at a time. -/
theorem ancestors_of_noParents (h : .parent ∉ p.components) :
    p.ancestors = [] ∨ ∃ q, p.ancestors = q :: q.ancestors ∧ Ascent q q.ancestors := by
  cases hq : p.parent? with
  | none => exact .inl (List.head?_eq_none_iff.1 hq)
  | some q =>
    obtain ⟨c, outer, hcs, houter, rfl, habove⟩ := above_eq_cons (trail_components p) hq
    refine .inr ⟨_, habove, ?_⟩
    rw [ancestors_ofComponents houter]
    refine ascent_ofComponents houter fun hparent => h ?_
    rw [← List.mem_reverse, hcs]
    exact List.mem_cons_of_mem _ hparent

end FilePath

end StubGen
