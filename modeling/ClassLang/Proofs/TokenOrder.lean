import ClassLang.Proofs.Places
import Mathlib.Data.List.Forall2
import Mathlib.Data.List.Pairwise

namespace ClassLang

namespace Tree

mutual

def locations : Tree → List Location
  | ⟨_, token, children⟩ => token.toList.map Token.location ++ locationsOf children

def locationsOf : List Tree → List Location
  | [] => []
  | t :: ts => t.locations ++ locationsOf ts

end

def TokensAtLeaves (t : Tree) : Prop := ∀ u ∈ t.nodes, u.token.isSome = true → u.children = []

def Ordered (t : Tree) : Prop := t.locations.Pairwise fun a b => a.position < b.position

structure Regular (t : Tree) : Prop where
  leaves : t.TokensAtLeaves
  ordered : t.Ordered

variable {t u : Tree}

theorem locationsOf_eq_flatMap (ts : List Tree) : locationsOf ts = ts.flatMap locations := by
  induction ts with
  | nil => rfl
  | cons t ts ih => rw [locationsOf, ih, List.flatMap_cons]

theorem locations_eq (t : Tree) :
    t.locations = t.token.toList.map Token.location ++ t.children.flatMap locations := by
  obtain ⟨rule, token, children⟩ := t
  rw [locations, locationsOf_eq_flatMap]

theorem locations_subset (hu : u ∈ t.children) : u.locations ⊆ t.locations := by
  rw [t.locations_eq]
  exact fun a ha => List.mem_append_right _ (List.mem_flatMap_of_mem hu ha)

mutual

theorem first?_eq (t : Tree) : t.first? = t.locations.head? := by
  obtain ⟨rule, token, children⟩ := t
  cases token with
  | none => exact firstOf?_eq children
  | some token => rfl

theorem firstOf?_eq (ts : List Tree) : firstOf? ts = (locationsOf ts).head? := by
  cases ts with
  | nil => rfl
  | cons t ts => rw [firstOf?, locationsOf, List.head?_append, t.first?_eq, firstOf?_eq ts]

end

theorem TokensAtLeaves.child (h : t.TokensAtLeaves) (hu : u ∈ t.children) : u.TokensAtLeaves := by
  intro v hv
  refine h v ?_
  rw [nodes_eq]
  exact List.mem_cons_of_mem _ (List.mem_flatMap_of_mem hu hv)

theorem lastOf?_eq {ts : List Tree} (h : ∀ t ∈ ts, t.last? = t.locations.getLast?) :
    lastOf? ts = (locationsOf ts).getLast? := by
  induction ts with
  | nil => rfl
  | cons t ts ih =>
    obtain ⟨ht, hts⟩ := List.forall_mem_cons.mp h
    rw [lastOf?, locationsOf, List.getLast?_append, ht, ih hts]

theorem TokensAtLeaves.last?_eq (h : t.TokensAtLeaves) : t.last? = t.locations.getLast? := by
  induction t using Tree.induct with
  | node t ih =>
    have hchildren : lastOf? t.children = (locationsOf t.children).getLast? :=
      lastOf?_eq fun u hu => ih u hu (h.child hu)
    have hleaf := h t (by rw [nodes_eq]; exact List.mem_cons_self)
    obtain ⟨rule, token, children⟩ := t
    cases token with
    | none => exact hchildren
    | some token =>
      obtain rfl : children = [] := hleaf rfl
      rfl

namespace Regular

variable (h : t.Regular)

include h

theorem child (hu : u ∈ t.children) : u.Regular := by
  refine ⟨h.leaves.child hu, ?_⟩
  have hs : u.locations.Sublist t.locations := by
    rw [t.locations_eq]
    exact (List.sublist_flatten_of_mem (List.mem_map_of_mem hu)).trans
      (List.sublist_append_right _ _)
  exact h.ordered.sublist hs

theorem apart : t.children.Pairwise fun u v =>
    ∀ a ∈ u.locations, ∀ b ∈ v.locations, a.position < b.position := by
  have ho := h.ordered
  rw [Ordered, t.locations_eq, List.pairwise_append, List.pairwise_flatMap] at ho
  exact ho.2.1.2

/-- The span of a tree that has tokens begins and ends at tokens, and all others lie between. -/
theorem span_bounds (hn : t.locations ≠ []) :
    t.span.start ∈ t.locations ∧ t.span.stop ∈ t.locations ∧
      ∀ a ∈ t.locations,
        t.span.start.position ≤ a.position ∧ a.position ≤ t.span.stop.position := by
  have hs : t.span = ⟨t.locations.head hn, t.locations.getLast hn⟩ := by
    rw [span, t.first?_eq, h.leaves.last?_eq, List.head?_eq_some_head hn,
      List.getLast?_eq_some_getLast hn]
  have : Std.Refl fun a b : Location => a.position ≤ b.position := ⟨fun _ => UInt32.le_refl _⟩
  have hle : t.locations.Pairwise fun a b => a.position ≤ b.position :=
    h.ordered.imp fun hab => UInt32.le_of_lt hab
  rw [hs]
  exact ⟨List.head_mem hn, List.getLast_mem hn, fun a ha => ⟨hle.rel_head ha, hle.rel_getLast ha⟩⟩

end Regular

end Tree

namespace Span

def Contains (outer inner : Span) : Prop :=
  outer.start.position ≤ inner.start.position ∧ inner.stop.position ≤ outer.stop.position

def Precedes (first second : Span) : Prop := first.stop.position < second.start.position

end Span

/-- The place of a part of a program, and those of the parts right inside it, in the order of the
source. -/
structure Extent where
  span : Span
  parts : List Extent

namespace Extent

/-- No place ends before it begins, and those of the parts right inside another one lie in its
place, apart from each other and in order. -/
inductive Nested : Extent → Prop
  | mk {e : Extent} (forward : e.span.start.position ≤ e.span.stop.position)
      (inside : ∀ part ∈ e.parts, e.span.Contains part.span)
      (apart : e.parts.Pairwise fun a b => a.span.Precedes b.span)
      (nested : ∀ part ∈ e.parts, part.Nested) : e.Nested

/-- The parts nest, begin and end at the given locations, and come one after the other. -/
structure Fit (locations : List Location) (parts : List Extent) : Prop where
  nested : ∀ part ∈ parts, part.Nested
  ends : ∀ part ∈ parts, part.span.start ∈ locations ∧ part.span.stop ∈ locations
  apart : parts.Pairwise fun a b => a.span.Precedes b.span

variable {locations : List Location} {parts : List Extent} {t : Tree}

theorem fit_nil : Fit locations [] := ⟨by simp, by simp, .nil⟩

theorem Fit.mono (h : Fit locations parts) {others : List Location} (hs : locations ⊆ others) :
    Fit others parts :=
  ⟨h.nested, fun part hp => ⟨hs (h.ends part hp).1, hs (h.ends part hp).2⟩, h.apart⟩

theorem Fit.ne_nil (h : Fit locations parts) (hp : parts ≠ []) : locations ≠ [] := by
  obtain ⟨part, hm⟩ := List.exists_mem_of_ne_nil parts hp
  exact List.ne_nil_of_mem (h.ends part hm).1

theorem Fit.node (h : Fit t.locations parts) (hr : t.Regular) (hn : t.locations ≠ []) :
    Fit t.locations [⟨t.span, parts⟩] := by
  obtain ⟨hstart, hstop, hbounds⟩ := hr.span_bounds hn
  have hnested : Nested ⟨t.span, parts⟩ := by
    refine .mk (hbounds _ hstart).2 (fun part hp => ?_) h.apart h.nested
    obtain ⟨hs, he⟩ := h.ends part hp
    exact ⟨(hbounds _ hs).1, (hbounds _ he).2⟩
  exact ⟨by simpa using hnested, by simpa using ⟨hstart, hstop⟩, List.pairwise_singleton _ _⟩

theorem Fit.around (h : Fit t.locations parts) (hr : t.Regular) (hp : parts ≠ []) :
    Fit t.locations [⟨t.span, parts⟩] := h.node hr (h.ne_nil hp)

theorem Fit.between {a b : Extent} (h : Fit locations [a, b]) :
    Fit locations [⟨⟨a.span.start, b.span.stop⟩, [a, b]⟩] := by
  have hab : a.span.stop.position < b.span.start.position := by
    simpa [Span.Precedes] using h.apart
  obtain ⟨ha, hb⟩ : a.Nested ∧ b.Nested := by simpa using h.nested
  obtain ⟨⟨hstart, -⟩, -, hstop⟩ : (a.span.start ∈ locations ∧ a.span.stop ∈ locations) ∧
      b.span.start ∈ locations ∧ b.span.stop ∈ locations := by simpa using h.ends
  have hnested : Nested ⟨⟨a.span.start, b.span.stop⟩, [a, b]⟩ := by
    obtain ⟨hforward, -, -, -⟩ := ha
    obtain ⟨kforward, -, -, -⟩ := hb
    have hfirst : a.span.start.position ≤ b.span.start.position :=
      UInt32.le_trans hforward (UInt32.le_of_lt hab)
    have hlast : a.span.stop.position ≤ b.span.stop.position :=
      UInt32.le_trans (UInt32.le_of_lt hab) kforward
    refine .mk (UInt32.le_trans hfirst kforward) ?_ h.apart h.nested
    simp only [List.forall_mem_cons, Span.Contains]
    exact ⟨⟨UInt32.le_refl _, hlast⟩, ⟨hfirst, UInt32.le_refl _⟩, by simp⟩
  exact ⟨by simpa using hnested, by simpa using ⟨hstart, hstop⟩, List.pairwise_singleton _ _⟩

def FitAt (t : Tree) (index : Nat) (parts : List Extent) : Prop :=
  ∃ u, t.children[index]? = some u ∧ Fit u.locations parts

theorem precedes_of_fitAt (hr : t.Regular) {first second : Nat} (hi : first < second)
    {before after : List Extent} (hb : FitAt t first before) (ha : FitAt t second after) :
    ∀ a ∈ before, ∀ b ∈ after, a.span.Precedes b.span := by
  obtain ⟨u, hu, hb⟩ := hb
  obtain ⟨v, hv, ha⟩ := ha
  obtain ⟨hlu, rfl⟩ := List.getElem?_eq_some_iff.mp hu
  obtain ⟨hlv, rfl⟩ := List.getElem?_eq_some_iff.mp hv
  intro a hma b hmb
  exact List.pairwise_iff_getElem.mp hr.apart first second hlu hlv hi _ (hb.ends a hma).2 _
    (ha.ends b hmb).1

theorem fit_row (hr : t.Regular) (row : List (Nat × List Extent))
    (hrow : row.Pairwise fun a b => a.1 < b.1) (h : ∀ item ∈ row, FitAt t item.1 item.2) :
    Fit t.locations (row.flatMap Prod.snd) := by
  have hinner (part : Extent) (hp : part ∈ row.flatMap Prod.snd) :
      ∃ parts, Fit t.locations parts ∧ part ∈ parts := by
    obtain ⟨item, hi, hp⟩ := List.mem_flatMap.mp hp
    obtain ⟨u, hu, hf⟩ := h item hi
    exact ⟨item.2, hf.mono (Tree.locations_subset (List.mem_of_getElem? hu)), hp⟩
  refine ⟨fun part hp => ?_, fun part hp => ?_, ?_⟩
  · obtain ⟨parts, hf, hp⟩ := hinner part hp
    exact hf.nested part hp
  · obtain ⟨parts, hf, hp⟩ := hinner part hp
    exact hf.ends part hp
  · refine List.pairwise_flatMap.mpr ⟨fun item hi => ?_, ?_⟩
    · obtain ⟨u, -, hf⟩ := h item hi
      exact hf.apart
    · exact hrow.imp_of_mem fun ha hb hab => precedes_of_fitAt hr hab (h _ ha) (h _ hb)

theorem Fit.append (h : Fit locations parts) {later : List Location} {more : List Extent}
    (k : Fit later more) (hl : ∀ a ∈ locations, ∀ b ∈ later, a.position < b.position) :
    Fit (locations ++ later) (parts ++ more) := by
  have h' : Fit (locations ++ later) parts := h.mono (List.subset_append_left _ _)
  have k' : Fit (locations ++ later) more := k.mono (List.subset_append_right _ _)
  refine ⟨List.forall_mem_append.mpr ⟨h'.nested, k'.nested⟩,
    List.forall_mem_append.mpr ⟨h'.ends, k'.ends⟩, List.pairwise_append.mpr ⟨h.apart, k.apart, ?_⟩⟩
  exact fun a ha b hb => hl _ (h.ends a ha).2 _ (k.ends b hb).1

theorem fit_children (hr : t.Regular)
    (h : List.Forall₂ (fun u part => Fit u.locations [part]) t.children parts) :
    Fit t.locations parts := by
  have hall : Fit (t.children.flatMap Tree.locations) parts := by
    have ha := hr.apart
    generalize t.children = row at h ha
    induction h with
    | nil => exact fit_nil
    | cons first rest ih =>
      obtain ⟨hfirst, hrest⟩ := List.pairwise_cons.mp ha
      refine first.append (ih hrest) fun a hma b hmb => ?_
      obtain ⟨v, hv, hb⟩ := List.mem_flatMap.mp hmb
      exact hfirst v hv a hma b hb
  rw [t.locations_eq]
  exact hall.mono (List.subset_append_right _ _)

end Extent

namespace Tree

open Extent

variable {α : Type} {t : Tree} {read : Tree → Except Malformed α}

theorem gives_text (t : Tree) : Gives (fun _ => t.locations ≠ []) t.text := by
  obtain ⟨rule, _ | token, children⟩ := t
  · exact gives_error _
  · exact gives_ok (by simp [locations])

theorem gives_regularChild (hr : t.Regular) (index : Nat) :
    Gives (fun u => t.children[index]? = some u ∧ u.Regular) (t.child index) := by
  unfold child
  cases hu : t.children[index]? with
  | none => exact gives_error _
  | some u => exact gives_ok ⟨rfl, hr.child (List.mem_of_getElem? hu)⟩

theorem gives_regularPart (hr : t.Regular) (index : Nat) (rule : Rule) :
    Gives (fun u => t.children[index]? = some u ∧ u.Regular) (t.part index rule) := by
  apply gives_bind (gives_regularChild hr index)
  intro u hu
  exact gives_expect hu rule

theorem gives_fitAt {extents : α → List Extent} {index : Nat}
    (h : ∀ u, t.children[index]? = some u → Gives (fun a => Fit u.locations (extents a)) (read u)) :
    Gives (fun a => FitAt t index (extents a)) (t.readAt index read) := by
  unfold readAt
  cases hu : t.children[index]? with
  | none => exact gives_error _
  | some u => exact (h u hu).imp fun a ha => ⟨u, hu, ha⟩

theorem gives_fitAt_bind {β : Type} {extents : α → List Extent} {Q : β → Prop}
    {next : α → Except Malformed β} (hr : t.Regular) (index : Nat)
    (h : ∀ u : Tree, u.Regular → Gives (fun a => Fit u.locations (extents a)) (read u))
    (hn : ∀ a, FitAt t index (extents a) → Gives Q (next a)) :
    Gives Q (t.child index >>= fun u => read u >>= next) := by
  apply gives_bind (gives_regularChild hr index)
  rintro u ⟨hu, hru⟩
  exact gives_bind (h u hru) fun a ha => hn a ⟨u, hu, ha⟩

variable {extent : α → Extent}

theorem gives_fit_mapM (hr : t.Regular)
    (h : ∀ u ∈ t.children, Gives (fun a => Fit u.locations [extent a]) (read u)) :
    Gives (fun as => Fit t.locations (as.map extent)) (t.children.mapM read) := by
  have hrow : Gives (List.Forall₂ (fun u a => Fit u.locations [extent a]) t.children)
      (t.children.mapM read) := by
    generalize t.children = row at h
    induction row with
    | nil => exact gives_pure .nil
    | cons u row ih =>
      rw [List.mapM_cons]
      apply gives_bind (h u (by simp))
      intro a ha
      apply gives_bind (ih fun v hv => h v (by simp [hv]))
      intro as has
      exact gives_pure (.cons ha has)
  exact hrow.imp fun as has => fit_children hr (List.forall₂_map_right_iff.mpr has)

theorem gives_fit_readRow (hr : t.Regular)
    (h : ∀ u ∈ t.children, Gives (fun a => Fit u.locations [extent a]) (read u)) (rule : Rule) :
    Gives (fun as => Fit t.locations (as.map extent)) (t.readRow rule read) := by
  apply gives_bind (gives_expect (P := (· = t)) rfl rule)
  rintro _ rfl
  exact gives_fit_mapM hr h

theorem gives_fit_readClause {index : Nat}
    (h : ∀ u, t.children[index]? = some u → Gives (fun a => Fit u.locations [extent a]) (read u))
    (rule : Rule) :
    Gives (fun found => Fit t.locations (found.toList.map extent))
      (t.readClause rule index read) := by
  apply gives_bind (gives_expect (P := (· = t)) rfl rule)
  rintro _ rfl
  split
  · exact gives_pure fit_nil
  · apply gives_bind (gives_fitAt h)
    rintro a ⟨u, hu, ha⟩
    exact gives_pure (ha.mono (locations_subset (List.mem_of_getElem? hu)))

theorem gives_fitAt_optionalPart (hr : t.Regular)
    (h : ∀ u : Tree, u.Regular → Gives (fun a => Fit u.locations [extent a]) (read u))
    (index : Nat) (rule : Rule) :
    Gives (fun found => FitAt t index (found.toList.map extent))
      (t.optionalPart index rule read) := by
  rw [optionalPart_eq]
  refine gives_fitAt fun u hu => gives_fit_readClause (fun v hv => ?_) rule
  exact h v ((hr.child (List.mem_of_getElem? hu)).child (List.mem_of_getElem? hv))

end Tree

end ClassLang
