import Mathlib.Data.List.Induction
import Mathlib.Data.List.Forall2

/-!
# Hash chains

Entries that name the hash of the entry before them. `digest` is the hash an
entry should have, which covers the entry's own `prev`. A linked list of
entries commits to all of them: another one of its length that ends in the
same hash agrees with it, entry by entry, on whatever equal digests agree on.
-/

namespace NodeLink.Lib

section HashChain

variable {E H : Type} (prev hash digest : E → H)

/-- Every entry has its digest for a hash and names the hash before it, the
first one `p`. -/
def Linked : H → List E → Prop
  | _, [] => True
  | p, e :: es => prev e = p ∧ hash e = digest e ∧ Linked (hash e) es

/-- The last hash of a list of entries, or `p`. -/
def tip (p : H) (es : List E) : H := (es.getLast?.map hash).getD p

variable {prev hash digest}

@[simp] theorem tip_nil (p : H) : tip hash p [] = p := rfl

@[simp] theorem tip_concat (p : H) (es : List E) (e : E) :
    tip hash p (es ++ [e]) = hash e := by simp [tip]

theorem tip_cons (p : H) (e : E) (es : List E) :
    tip hash p (e :: es) = tip hash (hash e) es := by
  cases es with
  | nil => rfl
  | cons a as => simp [tip, List.getLast?_eq_some_getLast]

theorem linked_concat {p : H} {es : List E} {e : E} :
    Linked prev hash digest p (es ++ [e]) ↔
      Linked prev hash digest p es ∧ prev e = tip hash p es ∧
        hash e = digest e := by
  induction es generalizing p with
  | nil => simp [Linked]
  | cons a as ih =>
      rw [List.cons_append, Linked, Linked, ih, tip_cons, and_assoc, and_assoc]

/-- Two chains of one length and one last hash agree, entry by entry. -/
theorem Linked.agree {R : E → E → Prop} {p q : H} {as bs : List E}
    (ha : Linked prev hash digest p as) (hb : Linked prev hash digest q bs)
    (hlen : as.length = bs.length) (htip : tip hash p as = tip hash q bs)
    (hbind : ∀ a ∈ as, ∀ b ∈ bs, digest a = digest b →
      R a b ∧ prev a = prev b) : List.Forall₂ R as bs := by
  induction as using List.reverseRecOn generalizing bs with
  | nil => rw [List.length_eq_zero_iff.mp hlen.symm]; exact .nil
  | append_singleton as a ih =>
      rcases List.eq_nil_or_concat bs with rfl | ⟨bs, b, rfl⟩
      · simp at hlen
      · rw [List.concat_eq_append] at hb hlen htip hbind ⊢
        obtain ⟨ha, hpa, hda⟩ := linked_concat.mp ha
        obtain ⟨hb, hpb, hdb⟩ := linked_concat.mp hb
        rw [tip_concat, tip_concat, hda, hdb] at htip
        obtain ⟨hab, hprev⟩ := hbind a (by simp) b (by simp) htip
        have hrest := ih ha hb (by simpa using hlen) (by rw [← hpa, ← hpb, hprev])
          (fun x hx y hy => hbind x (by simp [hx]) y (by simp [hy]))
        exact List.rel_append hrest (.cons hab .nil)

end HashChain

end NodeLink.Lib
