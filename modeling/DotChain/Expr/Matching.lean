import DotChain.Expr.Shape
import Mathlib.Data.List.Forall2

/-!
# Matching trees

Two trees match when they differ at most in where their nodes stand and in which segments stand after a
point. Main statement: `matches_of_shape`, trees of the same shape match wherever they stand.
-/

namespace DotChain.Expr

/-- Two trees have the same nodes but for points, and the nodes that correspond stand at places that
belong together. -/
inductive Matches (places : Span → Span → Prop) : Expr → Expr → Prop where
  | literal (value : Literal) {a b : Span} (placed : places a b) :
    Matches places (literal value a) (literal value b)
  | property (name : String) (dotted dotted' : Bool) {a b : Span} (placed : places a b) :
    Matches places (property name dotted a) (property name dotted' b)
  | reference (name : String) {a b : Span} (placed : places a b) :
    Matches places (reference name a) (reference name b)
  | indexer {index index' : Expr} {a b : Span} (inside : Matches places index index')
    (placed : places a b) : Matches places (indexer index a) (indexer index' b)
  | method (name : String) {args args' : List Expr} (dotted dotted' : Bool) {a b : Span}
    (inside : List.Forall₂ (Matches places) args args') (placed : places a b) :
    Matches places (method name args dotted a) (method name args' dotted' b)
  | assign {target target' value value' : Expr} {a b : Span} (ofTarget : Matches places target target')
    (ofValue : Matches places value value') (placed : places a b) :
    Matches places (assign target value a) (assign target' value' b)
  | chain {head head' : Expr} {tail tail' : List Expr} {a b : Span} (ofHead : Matches places head head')
    (ofTail : List.Forall₂ (Matches places) tail tail') (placed : places a b) :
    Matches places (chain head tail a) (chain head' tail' b)

variable {places : Span → Span → Prop}

theorem matches_refl (placed : ∀ span, places span span) (e : Expr) : e.Matches places e := by
  induction e with
  | literal value span => exact .literal value (placed span)
  | property name dotted span => exact .property name dotted dotted (placed span)
  | reference name span => exact .reference name (placed span)
  | indexer index span ih => exact .indexer ih (placed span)
  | method name args dotted span ih =>
    exact .method name dotted dotted (List.forall₂_same.mpr ih) (placed span)
  | assign target value span ofTarget ofValue => exact .assign ofTarget ofValue (placed span)
  | chain head tail span ofHead ofTail =>
    exact .chain ofHead (List.forall₂_same.mpr ofTail) (placed span)

/-- Lists of the same shapes match if their members do. -/
private theorem forall₂_matches {es others : List Expr} (same : es.map shape = others.map shape)
    (each : ∀ e ∈ es, ∀ other, e.shape = other.shape → e.Matches places other) :
    List.Forall₂ (Matches places) es others := by
  induction es generalizing others with
  | nil =>
    obtain rfl := List.map_eq_nil_iff.mp same.symm
    exact .nil
  | cons e es ih =>
    obtain ⟨other, rest, rfl, sameFirst, sameRest⟩ := List.map_eq_cons_iff.mp same.symm
    obtain ⟨ofFirst, ofRest⟩ := List.forall_mem_cons.mp each
    exact .cons (ofFirst other sameFirst.symm) (ih sameRest.symm ofRest)

/-- Trees of the same shape match, if it does not matter where they stand. -/
theorem matches_of_shape (anywhere : ∀ a b, places a b) {e other : Expr} (same : e.shape = other.shape) :
    e.Matches places other := by
  induction e generalizing other with
  | literal value span =>
    cases other <;> simp at same
    subst same
    exact .literal value (anywhere ..)
  | property name dotted span =>
    cases other <;> simp at same
    obtain ⟨rfl, rfl⟩ := same
    exact .property name dotted dotted (anywhere ..)
  | reference name span =>
    cases other <;> simp at same
    subst same
    exact .reference name (anywhere ..)
  | indexer index span ih =>
    cases other <;> simp at same
    exact .indexer (ih same) (anywhere ..)
  | method name args dotted span ih =>
    cases other <;> simp at same
    obtain ⟨rfl, inside, rfl⟩ := same
    exact .method name dotted dotted (forall₂_matches inside fun e member other => ih e member) (anywhere ..)
  | assign target value span ofTarget ofValue =>
    cases other <;> simp at same
    exact .assign (ofTarget same.1) (ofValue same.2) (anywhere ..)
  | chain head tail span ofHead ofTail =>
    cases other <;> simp at same
    exact .chain (ofHead same.1) (forall₂_matches same.2 fun e member other => ofTail e member)
      (anywhere ..)

end DotChain.Expr
