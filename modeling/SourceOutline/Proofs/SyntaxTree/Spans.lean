import Mathlib.Data.Int.Order.Basic
import Mathlib.Data.List.Chain
import Mathlib.Data.Prod.Lex
import SourceOutline.Proofs.SyntaxTree.Answers
import SourceOutline.Proofs.SyntaxTree.Positions

/-
  Spans nest as the nodes of the tree do, and those of siblings do not overlap.

  A span runs from the first leaf of a node to its last, and not over the bytes of the node itself.
  Among the leaves of a tree the first starts first and the last ends last (`firstLeaf_le`,
  `le_lastLeaf`), so in bytes the spans of children lie inside those of their parents. Lines and
  columns follow the bytes, since a later place never has a lower line, nor a lower column of the
  same line (`placeAt_mono`).

  Positions are words and spans show them as signed numbers, so the lines have to be fewer than
  2 ^ 63. In a text of less than 2 ^ 63 bytes they are, but for a single text: behind 2 ^ 63 - 1
  newlines the number of the line is 2 ^ 63, and a span that ends there ends before it starts
  (`not_spansNest_newlines`).
-/

namespace SourceOutline

/-! ## Places in order -/

namespace Text

/-- The characters that end within the first `n` bytes. -/
def beforeByte : Nat → List Char → List Char
  | _, [] => []
  | n, c :: cs => if c.utf8Size ≤ n then c :: beforeByte (n - c.utf8Size) cs else []

/-- Line and column of the place behind the first `n` bytes, the line first in the order. -/
def placeAt (cs : List Char) (n : Nat) : ℤ ×ₗ ℤ :=
  toLex (↑(lineBehind (beforeByte n cs)), ↑(columnBehind (beforeByte n cs)))

theorem beforeByte_append (a b : List Char) : beforeByte (byteSize a) (a ++ b) = a := by
  induction a with
  | nil =>
    cases b with
    | nil => rfl
    | cons c b => exact if_neg (Nat.not_le.2 c.utf8Size_pos)
  | cons c a ih =>
    rw [List.cons_append, beforeByte, byteSize_cons, if_pos (Nat.le_add_right ..),
      Nat.add_sub_cancel_left, ih]

theorem beforeByte_of_prefix {before cs : List Char} (h : before <+: cs) :
    beforeByte (byteSize before) cs = before := by
  obtain ⟨rest, rfl⟩ := h
  exact beforeByte_append before rest

theorem beforeByte_prefix_of_le {k n : Nat} (h : k ≤ n) (cs : List Char) :
    beforeByte k cs <+: beforeByte n cs := by
  induction cs generalizing k n with
  | nil => exact List.prefix_rfl
  | cons c cs ih =>
    unfold beforeByte
    by_cases hk : c.utf8Size ≤ k
    · rw [if_pos hk, if_pos (hk.trans h)]
      exact (List.prefix_cons_inj c).2 (ih (Nat.sub_le_sub_right h _))
    · rw [if_neg hk]
      exact List.nil_prefix

/-- A longer text leads to a later place: to a further line, or on along the same one. -/
theorem place_le_of_prefix {a b : List Char} (h : a <+: b) :
    (toLex (↑(lineBehind a), ↑(columnBehind a)) : ℤ ×ₗ ℤ) ≤
      toLex (↑(lineBehind b), ↑(columnBehind b)) := by
  obtain ⟨rest, rfl⟩ := h
  rw [Prod.Lex.toLex_le_toLex, lineBehind_append, columnBehind_append]
  by_cases hnewline : '\n' ∈ rest
  · have hcount := List.count_pos_iff.2 hnewline
    exact .inl (by dsimp only; omega)
  · rw [if_neg hnewline, List.count_eq_zero.2 hnewline]
    exact .inr ⟨rfl, by dsimp only; omega⟩

theorem placeAt_mono (cs : List Char) {k n : Nat} (h : k ≤ n) : placeAt cs k ≤ placeAt cs n :=
  place_le_of_prefix (beforeByte_prefix_of_le h cs)

theorem lineBehind_le_of_prefix {a b : List Char} (h : a <+: b) : lineBehind a ≤ lineBehind b :=
  Nat.add_le_add_left (h.sublist.count_le _) 1

end Text

/-- The start of a span, the line first in the order. -/
def Span.start (s : Span) : ℤ ×ₗ ℤ := toLex (s.startLine, s.startColumn)

def Span.stop (s : Span) : ℤ ×ₗ ℤ := toLex (s.endLine, s.endColumn)

/-! ## Leaves in order -/

namespace SyntaxTree

@[elab_as_elim]
theorem induction_children {motive : SyntaxTree → Prop}
    (step : ∀ t, (∀ c ∈ t.children, motive c) → motive t) (t : SyntaxTree) : motive t :=
  step t fun c _ => induction_children step c
termination_by t.height
decreasing_by exact height_lt_of_mem_children ‹_›

theorem mem_nodes_iff {t n : SyntaxTree} : n ∈ t.nodes ↔ n = t ∨ ∃ c ∈ t.children, n ∈ c.nodes := by
  rw [nodes_eq, List.mem_cons, mem_nodesOf]

/-- What holds of a node where nodes lie in the text as they do in the tree. -/
structure NodePlaced (chars : List Char) (n : SyntaxTree) : Prop where
  leaf : n.children = [] → ∃ before inside, n.label.PlacedIn chars before inside
  ordered : n.label.startByte ≤ n.label.endByte
  inside : ∀ c ∈ n.children,
    n.label.startByte ≤ c.label.startByte ∧ c.label.endByte ≤ n.label.endByte
  apart : n.children.IsChain fun a b => a.label.endByte ≤ b.label.startByte

/-- Every leaf has its true place. No node ends before it starts, its children lie inside it, and
    none of them starts before the one in front ends. -/
def WellPlaced (chars : List Char) (t : SyntaxTree) : Prop := ∀ n ∈ t.nodes, n.NodePlaced chars

/-- A node is not empty. -/
def HasWidth (t : SyntaxTree) : Prop := t.label.startByte ≠ t.label.endByte

instance (t : SyntaxTree) : Decidable t.HasWidth := inferInstanceAs (Decidable (_ ≠ _))

variable {chars : List Char} {t c n : SyntaxTree}

theorem wellPlaced_of_children (h : t.NodePlaced chars)
    (hchildren : ∀ c ∈ t.children, c.WellPlaced chars) : t.WellPlaced chars := by
  intro n hn
  rcases mem_nodes_iff.1 hn with rfl | ⟨c, hc, hn⟩
  · exact h
  · exact hchildren c hc n hn

/-- A leaf that has its true place is well placed. -/
theorem wellPlaced_of_placedIn {l : TreeLabel} (before inside : List Char)
    (h : l.PlacedIn chars before inside) : (node l []).WellPlaced chars := by
  refine wellPlaced_of_children ⟨fun _ => ⟨before, inside, h⟩, ?_, by simp [children], .nil⟩
    (by simp [children])
  rw [UInt64.le_iff_toNat_le, label, h.startByte, h.endByte]
  exact Text.byteSize_le_of_prefix (List.prefix_append before inside)

theorem WellPlaced.self (h : t.WellPlaced chars) : t.NodePlaced chars := h t t.self_mem_nodes

theorem WellPlaced.child (h : t.WellPlaced chars) (hc : c ∈ t.children) : c.WellPlaced chars :=
  fun n hn => h n (mem_nodes_of_mem_children hc hn)

/-- A node with a child that is not empty is not empty. -/
theorem WellPlaced.hasWidth_of_child (h : t.WellPlaced chars) (hc : c ∈ t.children)
    (hwidth : c.HasWidth) : t.HasWidth := by
  obtain ⟨hstart, hend⟩ := h.self.inside c hc
  have hordered := (h.child hc).self.ordered
  intro heq
  rw [← heq] at hend
  exact hwidth (UInt64.le_antisymm hordered (UInt64.le_trans hend hstart))

/-- Where each node ends before the next one starts, it ends before all later ones start. -/
theorem pairwise_of_isChain {ts : List SyntaxTree}
    (hordered : ∀ t ∈ ts, t.label.startByte ≤ t.label.endByte)
    (hchain : ts.IsChain fun a b => a.label.endByte ≤ b.label.startByte) :
    ts.Pairwise fun a b => a.label.endByte ≤ b.label.startByte := by
  induction ts with
  | nil => exact .nil
  | cons a ts ih =>
    have hrest := ih (fun t ht => hordered t (List.mem_cons_of_mem a ht)) hchain.tail
    refine List.pairwise_cons.2 ⟨fun b hb => ?_, hrest⟩
    cases ts with
    | nil => simp at hb
    | cons d ts =>
      have hnext := (List.isChain_cons_cons.1 hchain).1
      rcases List.mem_cons.1 hb with rfl | hb
      · exact hnext
      · calc a.label.endByte ≤ d.label.startByte := hnext
          _ ≤ d.label.endByte := hordered d (by simp)
          _ ≤ b.label.startByte := (List.pairwise_cons.1 hrest).1 b hb

theorem WellPlaced.pairwise (h : t.WellPlaced chars) :
    t.children.Pairwise fun a b => a.label.endByte ≤ b.label.startByte :=
  pairwise_of_isChain (fun _ hc => (h.child hc).self.ordered) h.self.apart

/-- All nodes of a tree lie inside it. -/
theorem WellPlaced.inside_of_mem_nodes (h : t.WellPlaced chars) (hn : n ∈ t.nodes) :
    t.label.startByte ≤ n.label.startByte ∧ n.label.endByte ≤ t.label.endByte := by
  induction t using induction_children with
  | step t ih =>
    rcases mem_nodes_iff.1 hn with rfl | ⟨c, hc, hn⟩
    · exact ⟨UInt64.le_refl _, UInt64.le_refl _⟩
    · obtain ⟨hstart, hend⟩ := ih c hc (h.child hc) hn
      obtain ⟨hstart', hend'⟩ := h.self.inside c hc
      exact ⟨UInt64.le_trans hstart' hstart, UInt64.le_trans hend hend'⟩

/-- `l` is the label of a leaf of the tree. -/
def IsLeaf (t : SyntaxTree) (l : TreeLabel) : Prop := ∃ n ∈ t.nodes, n.children = [] ∧ n.label = l

theorem IsLeaf.of_child {l : TreeLabel} (hc : c ∈ t.children) (h : c.IsLeaf l) : t.IsLeaf l := by
  obtain ⟨n, hn, hleaf, hl⟩ := h
  exact ⟨n, mem_nodes_of_mem_children hc hn, hleaf, hl⟩

/-- A leaf of a tree is the tree itself, or a leaf of a child. -/
theorem isLeaf_cases {l : TreeLabel} (h : t.IsLeaf l) :
    (t.children = [] ∧ t.label = l) ∨ ∃ c ∈ t.children, c.IsLeaf l := by
  obtain ⟨n, hn, hleaf, hl⟩ := h
  rcases mem_nodes_iff.1 hn with rfl | ⟨c, hc, hn⟩
  · exact .inl ⟨hleaf, hl⟩
  · exact .inr ⟨c, hc, n, hn, hleaf, hl⟩

theorem firstLeaf_eq (t : SyntaxTree) :
    t.firstLeaf = (t.children.head?.map firstLeaf).getD t.label := by
  obtain ⟨l, children⟩ := t
  cases children <;> rfl

theorem lastLeafOf_eq (own : TreeLabel) (ts : List SyntaxTree) :
    lastLeafOf own ts = (ts.getLast?.map lastLeaf).getD own := by
  induction ts with
  | nil => rfl
  | cons a ts ih =>
    cases ts with
    | nil => rfl
    | cons b ts =>
      rw [lastLeafOf, ih, List.getLast?_cons_cons]

theorem lastLeaf_eq (t : SyntaxTree) :
    t.lastLeaf = (t.children.getLast?.map lastLeaf).getD t.label := by
  obtain ⟨l, children⟩ := t
  exact lastLeafOf_eq l children

theorem isLeaf_self (h : t.children = []) : t.IsLeaf t.label := ⟨t, t.self_mem_nodes, h, rfl⟩

theorem isLeaf_firstLeaf (t : SyntaxTree) : t.IsLeaf t.firstLeaf := by
  induction t using induction_children with
  | step t ih =>
    rw [firstLeaf_eq]
    cases hhead : t.children.head? with
    | none => exact isLeaf_self (List.head?_eq_none_iff.1 hhead)
    | some c => exact .of_child (List.mem_of_head? hhead) (ih c (List.mem_of_head? hhead))

theorem isLeaf_lastLeaf (t : SyntaxTree) : t.IsLeaf t.lastLeaf := by
  induction t using induction_children with
  | step t ih =>
    rw [lastLeaf_eq]
    cases hlast : t.children.getLast? with
    | none => exact isLeaf_self (List.getLast?_eq_none_iff.1 hlast)
    | some c => exact .of_child (List.mem_of_getLast? hlast) (ih c (List.mem_of_getLast? hlast))

variable {l : TreeLabel}

theorem WellPlaced.leaf_inside (h : t.WellPlaced chars) (hl : t.IsLeaf l) :
    t.label.startByte ≤ l.startByte ∧ l.endByte ≤ t.label.endByte := by
  obtain ⟨n, hn, -, rfl⟩ := hl
  exact h.inside_of_mem_nodes hn

theorem WellPlaced.leaf_ordered (h : t.WellPlaced chars) (hl : t.IsLeaf l) :
    l.startByte ≤ l.endByte := by
  obtain ⟨n, hn, -, rfl⟩ := hl
  exact (h n hn).ordered

theorem WellPlaced.leaf_placed (h : t.WellPlaced chars) (hl : t.IsLeaf l) :
    ∃ before inside, l.PlacedIn chars before inside := by
  obtain ⟨n, hn, hleaf, rfl⟩ := hl
  exact (h n hn).leaf hleaf

/-- Leaves of two children stand in the order of the children. -/
theorem WellPlaced.leaf_le_of_apart {d : SyntaxTree} {l' : TreeLabel} (hc : c.WellPlaced chars)
    (hd : d.WellPlaced chars) (h : c.label.endByte ≤ d.label.startByte) (hl : c.IsLeaf l)
    (hl' : d.IsLeaf l') : l.endByte ≤ l'.startByte :=
  calc l.endByte ≤ c.label.endByte := (hc.leaf_inside hl).2
    _ ≤ d.label.startByte := h
    _ ≤ l'.startByte := (hd.leaf_inside hl').1

/-- No leaf starts before the first. -/
theorem WellPlaced.firstLeaf_le (h : t.WellPlaced chars) (hl : t.IsLeaf l) :
    t.firstLeaf.startByte ≤ l.startByte := by
  induction t using induction_children with
  | step t ih =>
    rw [firstLeaf_eq]
    rcases isLeaf_cases hl with ⟨hleaf, rfl⟩ | ⟨c, hc, hl⟩
    · rw [hleaf]
      exact UInt64.le_refl _
    · obtain ⟨a, ts, hts⟩ := List.exists_cons_of_ne_nil (List.ne_nil_of_mem hc)
      have ha : a ∈ t.children := by simp [hts]
      have hpairwise := h.pairwise
      rw [hts] at hc hpairwise ⊢
      rcases List.mem_cons.1 hc with rfl | hc
      · exact ih c ha (h.child ha) hl
      · -- the first leaf is one of the first child, which ends before `c` starts
        have hc' : c ∈ t.children := by simp [hts, hc]
        have hfirst := a.isLeaf_firstLeaf
        exact UInt64.le_trans ((h.child ha).leaf_ordered hfirst)
          ((h.child ha).leaf_le_of_apart (h.child hc') ((List.pairwise_cons.1 hpairwise).1 c hc)
            hfirst hl)

/-- No leaf ends behind the last. -/
theorem WellPlaced.le_lastLeaf (h : t.WellPlaced chars) (hl : t.IsLeaf l) :
    l.endByte ≤ t.lastLeaf.endByte := by
  induction t using induction_children with
  | step t ih =>
    rw [lastLeaf_eq]
    rcases isLeaf_cases hl with ⟨hleaf, rfl⟩ | ⟨c, hc, hl⟩
    · rw [hleaf]
      exact UInt64.le_refl _
    · obtain ⟨ts, b, hts⟩ :=
        (List.eq_nil_or_concat' t.children).resolve_left (List.ne_nil_of_mem hc)
      have hb : b ∈ t.children := by simp [hts]
      have hpairwise := h.pairwise
      rw [hts] at hc hpairwise ⊢
      rw [List.getLast?_concat]
      rcases List.mem_append.1 hc with hc | hc
      · have hc' : c ∈ t.children := by simp [hts, hc]
        have hlast := b.isLeaf_lastLeaf
        have hapart := (List.pairwise_append.1 hpairwise).2.2 c hc b (by simp)
        exact UInt64.le_trans ((h.child hc').leaf_le_of_apart (h.child hb) hapart hl hlast)
          ((h.child hb).leaf_ordered hlast)
      · obtain rfl := List.mem_singleton.1 hc
        exact ih c hb (h.child hb) hl

end SyntaxTree

/-! ## Spans of nodes -/

namespace TreeNode

variable {ctx : TreeContext} {l : TreeLabel} {before inside : List Char}

theorem line_tokenOf (l : TreeLabel) : (tokenOf ctx l).line = l.row + 1 := by
  unfold tokenOf
  split <;> rfl

theorem column_tokenOf (l : TreeLabel) : (tokenOf ctx l).column = charColumn ctx l := by
  unfold tokenOf
  split <;> rfl

/-- The text up to the end of a node. -/
def textTo (ctx : TreeContext) (t : SyntaxTree) : List Char :=
  Text.beforeByte t.label.endByte.toNat ctx.chars

theorem textTo_prefix_of_le {t c : SyntaxTree} (h : c.label.endByte ≤ t.label.endByte) :
    textTo ctx c <+: textTo ctx t :=
  Text.beforeByte_prefix_of_le h ctx.chars

theorem prefix_textTo_of_le {t : SyntaxTree} (h : before <+: ctx.chars)
    (hle : Text.byteSize before ≤ t.label.endByte.toNat) : before <+: textTo ctx t := by
  have hbefore := Text.beforeByte_prefix_of_le hle ctx.chars
  rwa [Text.beforeByte_of_prefix h] at hbefore

/-- Words that are the line and the column behind some part of a text are shown as such, if the
    text has lines that signed words can number. -/
theorem signed_place {text : List Char} (hlines : Text.lineBehind text < 2 ^ 63)
    (hsize : Text.byteSize ctx.chars < 2 ^ 63) (h : before <+: text) (hchars : before <+: ctx.chars)
    {line column : UInt64} (hline : line.toNat = Text.lineBehind before)
    (hcolumn : column.toNat = Text.columnBehind before) :
    (toLex (Position.signed line, Position.signed column) : ℤ ×ₗ ℤ) =
      Text.placeAt ctx.chars (Text.byteSize before) := by
  have hline_lt := Text.lineBehind_le_of_prefix h
  have hcolumn_lt := (Text.columnBehind_le before).trans (Text.byteSize_le_of_prefix hchars)
  rw [Position.signed_eq (by omega), Position.signed_eq (by omega), hline, hcolumn, Text.placeAt,
    Text.beforeByte_of_prefix hchars]

/-- The span of a node that is not empty runs from the start of the first leaf to the end of the
    last. -/
theorem exists_span (hsize : Text.byteSize ctx.chars < 2 ^ 63) {e : Element (TreeNode ctx)}
    (hlines : Text.lineBehind (textTo ctx e.node.tree) < 2 ^ 63)
    (h : e.node.tree.WellPlaced ctx.chars) (hwidth : e.node.tree.HasWidth) :
    ∃ s, e.span = .ok (some s) ∧
      s.start = Text.placeAt ctx.chars e.node.tree.firstLeaf.startByte.toNat ∧
      s.stop = Text.placeAt ctx.chars e.node.tree.lastLeaf.endByte.toNat := by
  have hfirstLeaf := e.node.tree.isLeaf_firstLeaf
  have hlastLeaf := e.node.tree.isLeaf_lastLeaf
  obtain ⟨before, inside, hfirst⟩ := h.leaf_placed hfirstLeaf
  obtain ⟨before', inside', hlast⟩ := h.leaf_placed hlastLeaf
  have hstop : Position.stopOf e.node = .ok (.token (tokenOf ctx e.node.tree.lastLeaf)) := by
    have hlast? : SyntaxNode.last? e.node = some (tokenOf ctx e.node.tree.lastLeaf) :=
      if_neg hwidth
    rw [Position.stopOf, hlast?]
  have hline : Position.endLine.get e.node = .ok (tokenOf ctx e.node.tree.lastLeaf).endLine := by
    rw [Position.get, hstop]
    rfl
  have hcolumn :
      Position.endColumn.get e.node = .ok (tokenOf ctx e.node.tree.lastLeaf).endColumn := by
    rw [Position.get, hstop]
    rfl
  refine ⟨_, Element.span_eq rfl rfl hline hcolumn, ?_, ?_⟩
  · have hchars := (List.prefix_append before inside).trans hfirst.range
    have hle := UInt64.le_trans (h.leaf_ordered hfirstLeaf) (h.leaf_inside hfirstLeaf).2
    rw [UInt64.le_iff_toNat_le, hfirst.startByte] at hle
    dsimp only [Span.start]
    rw [hfirst.startByte]
    refine signed_place hlines hsize (prefix_textTo_of_le hchars hle) hchars ?_ ?_
    · rw [line_tokenOf, row_succ_toNat hfirst hsize]
    · rw [column_tokenOf, charColumn_toNat hfirst hsize]
  · have hle := (h.leaf_inside hlastLeaf).2
    rw [UInt64.le_iff_toNat_le, hlast.endByte] at hle
    dsimp only [Span.stop]
    rw [hlast.endByte]
    exact signed_place hlines hsize (prefix_textTo_of_le hlast.range hle) hlast.range
      (endLine_tokenOf hlast hsize) (endColumn_tokenOf hlast hsize)

end TreeNode

/-! ## What an outline shows -/

namespace Element

variable {ν : Type} [SyntaxNode ν] {m : Metamodel} {e : Element ν} {o : Outline}

theorem span_of_outlineWith {descend : Element ν → Except Fault OutlineContent}
    (ho : e.outlineWith m descend = .ok o) : e.span = .ok o.span := by
  obtain ⟨span, hspan, ho⟩ := exists_of_bind_eq_ok ho
  obtain ⟨refs, -, ho⟩ := exists_of_bind_eq_ok ho
  obtain ⟨values, -, ho⟩ := exists_of_bind_eq_ok ho
  obtain rfl := Except.ok.inj ho
  exact hspan

/-- The outline `o` of `e` shows the child `c` as the outline `sub`. -/
structure ShowsChild (m : Metamodel) (e : Element ν) (o : Outline) (c : Element ν)
    (sub : Outline) : Prop where
  listed : ∃ ref, e.valueAt m ref = .ok (some (.element c)) ∧
    .mk ref.feature.name ref.index (.element sub) ∈ o.values
  outline : ∃ limit depth, (c.outlineAt m limit depth).run = some (.ok sub)

/-- The outline `o` of `e` shows `e'` as `o'`, at any depth. -/
inductive Shows (m : Metamodel) : Element ν → Outline → Element ν → Outline → Prop where
  | self {e : Element ν} {o : Outline} : Shows m e o e o
  | deeper {e c e' : Element ν} {o sub o' : Outline} :
      ShowsChild m e o c sub → Shows m c sub e' o' → Shows m e o e' o'

/-- Every outline among the values is that of a child. -/
theorem exists_showsChild {limit : Option Nat} {depth : Nat}
    (ho : (e.outlineAt m limit depth).run = some (.ok o)) {name : String} {i : Nat}
    {sub : Outline} (h : .mk name i (.element sub) ∈ o.values) : ∃ c, ShowsChild m e o c sub := by
  obtain ⟨refs, -, ref, -, c, ⟨rfl, rfl, hc⟩, hsub⟩ := exists_child_of_mem_values ho h
  exact ⟨c, ⟨ref, hc, h⟩, limit, depth + 1, hsub⟩

end Element

namespace TreeNode

variable {ctx : TreeContext} {m : Metamodel} {e : Element (TreeNode ctx)} {o : Outline}

/-- The spans of an element and of the children that its outline shows: a span does not end before
    it starts, those of the children lie inside, and a child further on among the nodes does not
    start before the span of the other ends. Empty nodes are left out. -/
structure SpansNest (m : Metamodel) (e : Element (TreeNode ctx)) (o : Outline) : Prop where
  ordered : e.node.tree.HasWidth → ∃ s ∈ o.span, s.start ≤ s.stop
  shown : ∀ name i sub, .mk name i (.element sub) ∈ o.values → ∃ c, e.ShowsChild m o c sub
  child : ∀ c sub, e.ShowsChild m o c sub → c.node.tree ∈ e.node.tree.children
  inside : ∀ c sub, e.ShowsChild m o c sub → c.node.tree.HasWidth →
    ∃ s ∈ o.span, ∃ s' ∈ sub.span, s.start ≤ s'.start ∧ s'.stop ≤ s.stop
  apart : ∀ c sub d sub', e.ShowsChild m o c sub → e.ShowsChild m o d sub' →
    c.node.tree.HasWidth → d.node.tree.HasWidth → ∀ i j : Nat, i < j →
    e.node.tree.children[i]? = some c.node.tree → e.node.tree.children[j]? = some d.node.tree →
    ∃ s ∈ sub.span, ∃ s' ∈ sub'.span, s.stop ≤ s'.start

theorem mem_children_of_showsChild {c : Element (TreeNode ctx)} {sub : Outline}
    (h : e.ShowsChild m o c sub) : c.node.tree ∈ e.node.tree.children := by
  obtain ⟨ref, hc, -⟩ := h.listed
  exact mem_children_of_under (Element.under_of_valueAt hc).1

theorem exists_span_of_outlineAt (hsize : Text.byteSize ctx.chars < 2 ^ 63)
    (hlines : Text.lineBehind (textTo ctx e.node.tree) < 2 ^ 63)
    (h : e.node.tree.WellPlaced ctx.chars) (hwidth : e.node.tree.HasWidth) {limit : Option Nat}
    {depth : Nat} (ho : (e.outlineAt m limit depth).run = some (.ok o)) :
    ∃ s ∈ o.span,
      s.start = Text.placeAt ctx.chars e.node.tree.firstLeaf.startByte.toNat ∧
      s.stop = Text.placeAt ctx.chars e.node.tree.lastLeaf.endByte.toNat := by
  obtain ⟨s, hs, hstart, hstop⟩ := exists_span hsize hlines h hwidth
  have hspan := Element.span_of_outlineWith (Element.outlineWith_of_outlineAt ho)
  exact ⟨s, Except.ok.inj (hspan.symm.trans hs), hstart, hstop⟩

/-- The same for a child that the outline shows. -/
theorem exists_span_of_showsChild (hsize : Text.byteSize ctx.chars < 2 ^ 63)
    (hlines : Text.lineBehind (textTo ctx e.node.tree) < 2 ^ 63)
    (h : e.node.tree.WellPlaced ctx.chars) {c : Element (TreeNode ctx)} {sub : Outline}
    (hc : e.ShowsChild m o c sub) (hwidth : c.node.tree.HasWidth) :
    ∃ s ∈ sub.span,
      s.start = Text.placeAt ctx.chars c.node.tree.firstLeaf.startByte.toNat ∧
      s.stop = Text.placeAt ctx.chars c.node.tree.lastLeaf.endByte.toNat := by
  have hmem := mem_children_of_showsChild hc
  have hprefix : textTo ctx c.node.tree <+: textTo ctx e.node.tree :=
    textTo_prefix_of_le (h.self.inside _ hmem).2
  have hfewer := Nat.lt_of_le_of_lt (Text.lineBehind_le_of_prefix hprefix) hlines
  obtain ⟨limit, depth, hsub⟩ := hc.outline
  exact exists_span_of_outlineAt hsize hfewer (h.child hmem) hwidth hsub

/-- The spans of one element and of its children nest. -/
theorem spansNest_of_outlineAt (hsize : Text.byteSize ctx.chars < 2 ^ 63)
    (hlines : Text.lineBehind (textTo ctx e.node.tree) < 2 ^ 63)
    (h : e.node.tree.WellPlaced ctx.chars) {limit : Option Nat} {depth : Nat}
    (ho : (e.outlineAt m limit depth).run = some (.ok o)) : SpansNest m e o where
  ordered hwidth := by
    obtain ⟨s, hs, hstart, hstop⟩ := exists_span_of_outlineAt hsize hlines h hwidth ho
    have hlast := e.node.tree.isLeaf_lastLeaf
    refine ⟨s, hs, ?_⟩
    rw [hstart, hstop]
    exact Text.placeAt_mono _ (UInt64.le_trans (h.firstLeaf_le hlast) (h.leaf_ordered hlast))
  shown name i sub hsub := Element.exists_showsChild ho hsub
  child c sub hc := mem_children_of_showsChild hc
  inside c sub hc hwidth := by
    have hmem := mem_children_of_showsChild hc
    obtain ⟨s, hs, hstart, hstop⟩ :=
      exists_span_of_outlineAt hsize hlines h (h.hasWidth_of_child hmem hwidth) ho
    obtain ⟨s', hs', hstart', hstop'⟩ := exists_span_of_showsChild hsize hlines h hc hwidth
    refine ⟨s, hs, s', hs', ?_, ?_⟩
    · rw [hstart, hstart']
      exact Text.placeAt_mono _ (h.firstLeaf_le (.of_child hmem c.node.tree.isLeaf_firstLeaf))
    · rw [hstop, hstop']
      exact Text.placeAt_mono _ (h.le_lastLeaf (.of_child hmem c.node.tree.isLeaf_lastLeaf))
  apart c sub d sub' hc hd hwidth hwidth' i j hij hi hj := by
    obtain ⟨s, hs, -, hstop⟩ := exists_span_of_showsChild hsize hlines h hc hwidth
    obtain ⟨s', hs', hstart, -⟩ := exists_span_of_showsChild hsize hlines h hd hwidth'
    refine ⟨s, hs, s', hs', ?_⟩
    obtain ⟨hi, hci⟩ := List.getElem?_eq_some_iff.1 hi
    obtain ⟨hj, hdj⟩ := List.getElem?_eq_some_iff.1 hj
    have hapart := List.pairwise_iff_getElem.1 h.pairwise i j hi hj hij
    rw [hci, hdj] at hapart
    have hwell := h.child (mem_children_of_showsChild hc)
    have hwell' := h.child (mem_children_of_showsChild hd)
    rw [hstart, hstop]
    exact Text.placeAt_mono _ (hwell.leaf_le_of_apart hwell' hapart
      c.node.tree.isLeaf_lastLeaf d.node.tree.isLeaf_firstLeaf)

/-- Every element that an outline shows has its place in the tree, and its own outline. -/
theorem wellPlaced_of_shows (h : e.node.tree.WellPlaced ctx.chars) {limit : Option Nat}
    {depth : Nat} (ho : (e.outlineAt m limit depth).run = some (.ok o))
    {e' : Element (TreeNode ctx)} {o' : Outline} (hshows : e.Shows m o e' o') :
    e'.node.tree.WellPlaced ctx.chars ∧
      e'.node.tree.label.endByte ≤ e.node.tree.label.endByte ∧
      ∃ limit depth, (e'.outlineAt m limit depth).run = some (.ok o') := by
  induction hshows generalizing limit depth with
  | self => exact ⟨h, UInt64.le_refl _, limit, depth, ho⟩
  | deeper hc _ ih =>
    have hmem := mem_children_of_showsChild hc
    obtain ⟨limit', depth', hsub⟩ := hc.outline
    obtain ⟨hplaced, hend, ho'⟩ := ih (h.child hmem) hsub
    exact ⟨hplaced, UInt64.le_trans hend (h.self.inside _ hmem).2, ho'⟩

/-- Spans nest and do not overlap, at every element that an outline shows, under any limit and for
    any metamodel and table, in every text of less than 2 ^ 63 bytes, if the element outlined ends
    on a line below 2 ^ 63. -/
theorem spansNest_of_wellPlaced {ctx : TreeContext} (hsize : Text.byteSize ctx.chars < 2 ^ 63)
    (m : Metamodel) (limit : Option Nat) (e : Element (TreeNode ctx))
    (hlines : Text.lineBehind (textTo ctx e.node.tree) < 2 ^ 63)
    (hplaced : e.node.tree.WellPlaced ctx.chars) {o : Outline}
    (ho : e.outline m limit = some (.ok o)) (e' : Element (TreeNode ctx)) (o' : Outline)
    (hshows : e.Shows m o e' o') : SpansNest m e' o' := by
  obtain ⟨hplaced', hend, limit', depth', ho'⟩ := wellPlaced_of_shows hplaced ho hshows
  have hprefix : textTo ctx e'.node.tree <+: textTo ctx e.node.tree := textTo_prefix_of_le hend
  have hfewer := Nat.lt_of_le_of_lt (Text.lineBehind_le_of_prefix hprefix) hlines
  exact spansNest_of_outlineAt hsize hfewer hplaced' ho'

/-- The source `é='ß⏎',x`: a pair over two lines, then a name. -/
def pairText : TreeContext :=
  ⟨"é='ß\n',x".toList, 10, (∅ : SlotTable).insertField "block" "items" (.field true false)⟩

def pairMetamodel : Metamodel :=
  .ofEntities [⟨"block", [], [⟨"items", .multiple, []⟩]⟩, ⟨"pair", [], []⟩, ⟨"name", [], []⟩]

def pairItem : SyntaxTree :=
  .node ⟨"pair", true, some "items", 0, 8, 0, 0⟩
    [.node ⟨"name", true, none, 0, 2, 0, 0⟩ [],
      .node ⟨"=", false, none, 2, 3, 0, 2⟩ [],
      .node ⟨"text", true, none, 3, 8, 0, 3⟩ []]

def nameItem : SyntaxTree := .node ⟨"name", true, some "items", 9, 10, 1, 2⟩ []

/-- The block ends with a token that is missing, at the end of the text. -/
def pairBlock : SyntaxTree :=
  .node ⟨"block", true, none, 0, 10, 0, 0⟩
    [pairItem, .node ⟨",", false, none, 8, 9, 1, 1⟩ [], nameItem,
      .node ⟨";", false, none, 10, 10, 1, 3⟩ []]

def pairBlockElement : Element (TreeNode pairText) :=
  pairBlock.element pairText ⟨"block", [], [⟨"items", .multiple, []⟩]⟩

def pairBlockOrder : List Reference :=
  [⟨.relation ⟨"items", .multiple, []⟩, 0⟩, ⟨.relation ⟨"items", .multiple, []⟩, 1⟩]

def pairBlockOutline : Outline :=
  .mk "block" (some ⟨1, 0, 2, 3⟩)
    [.mk "items" 0 (.element (.mk "pair" (some ⟨1, 0, 2, 1⟩) [])),
      .mk "items" 1 (.element (.mk "name" (some ⟨2, 2, 2, 3⟩) []))]

theorem wellPlaced_pairItem : pairItem.WellPlaced pairText.chars := by
  refine SyntaxTree.wellPlaced_of_children ⟨nofun, by decide, by decide, by decide⟩ ?_
  simp only [pairItem, SyntaxTree.children, List.forall_mem_cons]
  refine ⟨?_, ?_, ?_, List.forall_mem_nil _⟩
  · exact SyntaxTree.wellPlaced_of_placedIn [] "é".toList (by decide)
  · exact SyntaxTree.wellPlaced_of_placedIn "é".toList "=".toList (by decide)
  · exact SyntaxTree.wellPlaced_of_placedIn "é=".toList "'ß\n'".toList (by decide)

theorem wellPlaced_pairBlock : pairBlock.WellPlaced pairText.chars := by
  refine SyntaxTree.wellPlaced_of_children ⟨nofun, by decide, by decide, by decide⟩ ?_
  simp only [pairBlock, SyntaxTree.children, List.forall_mem_cons]
  refine ⟨wellPlaced_pairItem, ?_, ?_, ?_, List.forall_mem_nil _⟩
  · exact SyntaxTree.wellPlaced_of_placedIn "é='ß\n'".toList ",".toList (by decide)
  · exact SyntaxTree.wellPlaced_of_placedIn "é='ß\n',".toList "x".toList (by decide)
  · exact SyntaxTree.wellPlaced_of_placedIn "é='ß\n',x".toList [] (by decide)

/-- Both items are shown, neither is empty, and the spans of the block and of the pair nest. -/
theorem spansNest_pairBlock :
    Text.byteSize pairText.chars < 2 ^ 63 ∧
      Text.lineBehind (textTo pairText pairBlock) < 2 ^ 63 ∧
      pairBlock.WellPlaced pairText.chars ∧
      pairBlockElement.outline pairMetamodel none = some (.ok pairBlockOutline) ∧
      pairItem.HasWidth ∧ nameItem.HasWidth ∧
      ∃ c d sub sub', pairBlockElement.ShowsChild pairMetamodel pairBlockOutline c sub ∧
        pairBlockElement.ShowsChild pairMetamodel pairBlockOutline d sub' ∧
        c.node.tree = pairItem ∧ d.node.tree = nameItem ∧
        SpansNest pairMetamodel pairBlockElement pairBlockOutline ∧
        SpansNest pairMetamodel c sub := by
  have hsize : Text.byteSize pairText.chars < 2 ^ 63 := by decide
  have hlines : Text.lineBehind (textTo pairText pairBlock) < 2 ^ 63 := by decide
  have horder : pairBlockElement.valuesOrder = .ok pairBlockOrder := by cbv
  have hitem : ∀ c, Element.Child pairMetamodel pairBlockElement c →
      (c.contentAt pairMetamodel none 0).run =
        some (c.span.map fun s => .element (.mk c.entity.name s [])) := by
    intro c hc
    have hwrap := hc.wrap_eq
    have hmem := mem_children_of_under hc.under
    obtain ⟨⟨t⟩, entity⟩ := c
    simp only [pairBlockElement, SyntaxTree.element, pairBlock, SyntaxTree.children, List.mem_cons,
      List.not_mem_nil, or_false] at hmem
    rcases hmem with rfl | rfl | rfl | rfl <;> cases hwrap <;>
      exact Element.run_contentAt_of_featureless rfl rfl 0
  have ho : pairBlockElement.outline pairMetamodel none = some (.ok pairBlockOutline) := by
    rw [Element.outline, Element.run_outlineAt_eq hitem, Element.outlineWith, horder]
    rfl
  have hpair : pairBlockElement.ShowsChild pairMetamodel pairBlockOutline
      (pairItem.element pairText ⟨"pair", [], []⟩) (.mk "pair" (some ⟨1, 0, 2, 1⟩) []) :=
    ⟨⟨⟨.relation ⟨"items", .multiple, []⟩, 0⟩, rfl, .head _⟩, none, 0,
      Element.run_outlineAt_of_featureless rfl rfl none 0⟩
  have hname : pairBlockElement.ShowsChild pairMetamodel pairBlockOutline
      (nameItem.element pairText ⟨"name", [], []⟩) (.mk "name" (some ⟨2, 2, 2, 3⟩) []) :=
    ⟨⟨⟨.relation ⟨"items", .multiple, []⟩, 1⟩, rfl, .tail _ (.head _)⟩, none, 0,
      Element.run_outlineAt_of_featureless rfl rfl none 0⟩
  have hnest := spansNest_of_wellPlaced hsize pairMetamodel none pairBlockElement hlines
    wellPlaced_pairBlock ho
  exact ⟨hsize, hlines, wellPlaced_pairBlock, ho, by decide, by decide, _, _, _, _, hpair, hname,
    rfl, rfl, hnest _ _ .self, hnest _ _ (.deeper hpair .self)⟩

/-! ## The text with too many lines -/

/-- A text of newlines and nothing else. -/
def newlines (n : Nat) : TreeContext := ⟨List.replicate n '\n', n, ∅⟩

/-- All of a text of newlines as one leaf. -/
def newlineLeaf (n : Nat) : SyntaxTree := .node ⟨"blank", true, none, 0, n.toUInt64, 0, 0⟩ []

def newlineElement (n : Nat) : Element (TreeNode (newlines n)) :=
  (newlineLeaf n).element (newlines n) ⟨"blank", [], []⟩

theorem byteSize_newlines (n : Nat) : Text.byteSize (newlines n).chars = n := by
  induction n with
  | zero => rfl
  | succ n ih =>
    have hsize : Text.byteSize (newlines (n + 1)).chars = 1 + Text.byteSize (newlines n).chars :=
      Text.byteSize_cons '\n' _
    rw [hsize, ih, Nat.add_comm]

theorem lineBehind_newlines (n : Nat) : Text.lineBehind (newlines n).chars = n + 1 := by
  rw [Text.lineBehind, newlines, List.count_replicate_self, Nat.add_comm]

theorem columnBehind_newlines {n : Nat} (hn : n ≠ 0) :
    Text.columnBehind (newlines n).chars = 0 := by
  obtain ⟨n, rfl⟩ := Nat.exists_eq_succ_of_ne_zero hn
  have hlast : (newlines (n + 1)).chars = List.replicate n '\n' ++ ['\n'] :=
    List.replicate_succ' ..
  rw [hlast, Text.columnBehind, Text.openLine_concat, if_pos rfl, List.length_nil]

theorem placedIn_newlines {n : Nat} (hn : n < 2 ^ 64) :
    (newlineLeaf n).label.PlacedIn (newlines n).chars [] (newlines n).chars where
  range := List.prefix_rfl
  startByte := rfl
  endByte := (toNat_toUInt64 hn).trans (byteSize_newlines n).symm
  row := rfl
  column := rfl

/-- The leaf ends on the line behind all newlines. -/
theorem span_newlines {n : Nat} (hn : n < 2 ^ 63) (h0 : n ≠ 0) :
    (newlineElement n).span = .ok (some ⟨1, 0, Position.signed (n + 1).toUInt64, 0⟩) := by
  have hsize : Text.byteSize (newlines n).chars < 2 ^ 63 := by rwa [byteSize_newlines]
  have hplaced := placedIn_newlines (n := n) (by omega)
  have hwidth : (0 : UInt64) ≠ n.toUInt64 := by
    intro heq
    have hzero := congrArg UInt64.toNat heq
    rw [toNat_toUInt64 (by omega)] at hzero
    exact h0 hzero.symm
  obtain ⟨⟨sl, hsl, hsl'⟩, sc, hsc, hsc'⟩ :=
    startLine_at hsize (n := (newlineElement n).node) hplaced
  obtain ⟨⟨el, hel, hel'⟩, ec, hec, hec'⟩ :=
    endLine_at hsize (n := (newlineElement n).node) hplaced hwidth
  rw [List.nil_append, lineBehind_newlines] at hel'
  rw [List.nil_append, columnBehind_newlines h0] at hec'
  obtain rfl : sl = 1 := UInt64.toNat_inj.1 hsl'
  obtain rfl : sc = 0 := UInt64.toNat_inj.1 hsc'
  obtain rfl : ec = 0 := UInt64.toNat_inj.1 hec'
  obtain rfl : el = (n + 1).toUInt64 := by
    refine UInt64.toNat_inj.1 ?_
    rw [hel', toNat_toUInt64 (by omega)]
  exact Element.span_eq hsl hsc hel hec

theorem outline_newlines {n : Nat} (hn : n < 2 ^ 63) (h0 : n ≠ 0) :
    (newlineElement n).outline ∅ none =
      some (.ok (.mk "blank" (some ⟨1, 0, Position.signed (n + 1).toUInt64, 0⟩) [])) := by
  rw [Element.outline, Element.run_outlineAt_of_featureless rfl rfl, span_newlines hn h0]
  rfl

/-- Behind 2 ^ 63 - 1 newlines a span ends before it starts: the text is shorter than 2 ^ 63 bytes,
    its leaf has its true place and is not empty, but the line of its end is shown as -2 ^ 63. -/
theorem not_spansNest_newlines :
    Text.byteSize (newlines (2 ^ 63 - 1)).chars < 2 ^ 63 ∧
      (newlineLeaf (2 ^ 63 - 1)).WellPlaced (newlines (2 ^ 63 - 1)).chars ∧
      (newlineElement (2 ^ 63 - 1)).outline ∅ none =
        some (.ok (.mk "blank" (some ⟨1, 0, -2 ^ 63, 0⟩) [])) ∧
      ¬ SpansNest ∅ (newlineElement (2 ^ 63 - 1)) (.mk "blank" (some ⟨1, 0, -2 ^ 63, 0⟩) []) := by
  have hline : Position.signed (2 ^ 63 - 1 + 1).toUInt64 = -2 ^ 63 := by decide
  have ho := outline_newlines (n := 2 ^ 63 - 1) (by decide) (by decide)
  rw [hline] at ho
  refine ⟨?_, ?_, ho, fun hnest => ?_⟩
  · rw [byteSize_newlines]
    decide
  · exact SyntaxTree.wellPlaced_of_placedIn [] _ (placedIn_newlines (by decide))
  · have hwidth : (newlineLeaf (2 ^ 63 - 1)).HasWidth := by decide
    obtain ⟨s, hs, hordered⟩ := hnest.ordered hwidth
    obtain rfl := Option.some.inj hs
    rcases Prod.Lex.toLex_le_toLex.1 hordered with hlt | ⟨heq, -⟩
    · exact absurd hlt (by decide)
    · exact absurd heq (by decide)

end TreeNode

end SourceOutline
