import Mathlib
import NodeLink.Lib.Folding
import NodeLink.Server.WebAuthn

/-!
# How many spellings a base64url value has

What `b64url_encode` writes `b64url_decode` reads back, and among the texts it
reads for some bytes it is the one without white space around it whose last
letter has no bits to spare. Any other text is a second spelling.
-/

namespace NodeLink.Proofs.Base64Url

open Lib Server.WebAuthn

/-! ## What is written is read back -/

/-- The letters without padding. -/
def unpadded (bs : Bytes) : List Char :=
  (encodeGroups bs).filter fun c => c != '='

/-- A letter of the alphabet: written for URLs it reads back. -/
def IsLetter (c : Char) : Prop := ∃ n < 64, c = letter n

theorem url_letter : ∀ n < 64, standardLetter (urlSafe (letter n)) = letter n ∧
    urlLetter (urlSafe (letter n)) = true ∧
    pySpace (urlSafe (letter n)) = false ∧ (letter n != '=') = true := by
  decide

theorem unpadded_shape (bs : Bytes) :
    (∀ c ∈ unpadded bs, IsLetter c) ∧ (unpadded bs).length % 4 ≠ 1 ∧
      unpadded bs ++
        List.replicate ((4 - (unpadded bs).length % 4) % 4) '=' =
          encodeGroups bs := by
  have hkeep : ∀ {n}, n < 64 → ∀ l : List Char,
      (letter n :: l).filter (fun c => c != '=') =
        letter n :: l.filter fun c => c != '=' :=
    fun hn _ => List.filter_cons_of_pos (url_letter _ hn).2.2.2
  unfold unpadded
  fun_induction encodeGroups bs with
  | case1 => exact ⟨by simp, by decide, rfl⟩
  | case2 a =>
      have ha := a.toNat_lt
      have h1 : a.toNat / 4 < 64 := by omega
      have h2 : a.toNat % 4 * 16 < 64 := by omega
      rw [hkeep h1, hkeep h2]
      refine ⟨fun c hc => ?_, (by decide : 2 % 4 ≠ 1), rfl⟩
      rcases List.mem_cons.mp hc with rfl | hc
      · exact ⟨_, h1, rfl⟩
      · exact ⟨_, h2, List.mem_singleton.mp hc⟩
  | case3 a b =>
      have ha := a.toNat_lt
      have hb := b.toNat_lt
      have h1 : a.toNat / 4 < 64 := by omega
      have h2 : a.toNat % 4 * 16 + b.toNat / 16 < 64 := by omega
      have h3 : b.toNat % 16 * 4 < 64 := by omega
      rw [hkeep h1, hkeep h2, hkeep h3]
      refine ⟨fun c hc => ?_, (by decide : 3 % 4 ≠ 1), rfl⟩
      rcases List.mem_cons.mp hc with rfl | hc
      · exact ⟨_, h1, rfl⟩
      · rcases List.mem_cons.mp hc with rfl | hc
        · exact ⟨_, h2, rfl⟩
        · exact ⟨_, h3, List.mem_singleton.mp hc⟩
  | case4 a b c rest ih =>
      have ha := a.toNat_lt
      have hb := b.toNat_lt
      have hc := c.toNat_lt
      have h1 : a.toNat / 4 < 64 := by omega
      have h2 : a.toNat % 4 * 16 + b.toNat / 16 < 64 := by omega
      have h3 : b.toNat % 16 * 4 + c.toNat / 64 < 64 := by omega
      have h4 : c.toNat % 64 < 64 := by omega
      obtain ⟨hletters, hlen, htext⟩ := ih
      rw [hkeep h1, hkeep h2, hkeep h3, hkeep h4]
      have hmod : ∀ l : List Char, ∀ p q r s : Char,
          (p :: q :: r :: s :: l).length % 4 = l.length % 4 := by
        intro l p q r s
        simp only [List.length_cons]
        omega
      rw [hmod]
      refine ⟨fun x hx => ?_, hlen, ?_⟩
      · simp only [List.mem_cons] at hx
        rcases hx with rfl | rfl | rfl | rfl | hx
        · exact ⟨_, h1, rfl⟩
        · exact ⟨_, h2, rfl⟩
        · exact ⟨_, h3, rfl⟩
        · exact ⟨_, h4, rfl⟩
        · exact hletters x hx
      · rw [List.cons_append, List.cons_append, List.cons_append,
          List.cons_append, htext]

theorem trim_eq_self_of_none {p : Char → Bool} {l : List Char}
    (h : ∀ c ∈ l, p c = false) : trim p l = l := by
  refine trim_eq_self_iff.mpr ⟨?_, ?_⟩
  · exact List.dropWhile_eq_self_iff.mpr fun hl => by
      rw [h _ (List.getElem_mem hl)]; exact Bool.false_ne_true
  · exact List.rdropWhile_eq_self_iff.mpr fun hl => by
      rw [h _ (List.getLast_mem hl)]; exact Bool.false_ne_true

/-- What `b64url_encode` writes `b64url_decode` reads back. -/
theorem b64urlDecode_b64urlEncode {bs : Bytes} (h : bs ≠ []) :
    b64urlDecode (b64urlEncode bs) = some bs := by
  obtain ⟨hletters, hlen, htext⟩ := unpadded_shape bs
  have hstrip : (strip (b64urlEncode bs)).toList = (unpadded bs).map urlSafe := by
    rw [strip, String.toList_ofList, b64urlEncode, String.toList_ofList]
    refine trim_eq_self_of_none fun c hc => ?_
    obtain ⟨d, hd, rfl⟩ := List.mem_map.mp hc
    obtain ⟨n, hn, rfl⟩ := hletters d hd
    exact (url_letter n hn).2.2.1
  have hstandard : ((unpadded bs).map urlSafe).map standardLetter =
      unpadded bs := by
    rw [List.map_map]
    refine (List.map_congr_left fun d hd => ?_).trans (List.map_id _)
    obtain ⟨n, hn, rfl⟩ := hletters d hd
    exact (url_letter n hn).1
  have hall : ((unpadded bs).map urlSafe).all urlLetter = true := by
    refine List.all_eq_true.mpr fun c hc => ?_
    obtain ⟨d, hd, rfl⟩ := List.mem_map.mp hc
    obtain ⟨n, hn, rfl⟩ := hletters d hd
    exact (url_letter n hn).2.1
  have hne : unpadded bs ≠ [] := by
    intro hnil
    rw [hnil] at htext
    have hgroups : encodeGroups bs = [] := htext.symm
    have hback := decodeGroups_encodeGroups bs
    rw [hgroups] at hback
    exact h (Option.some.inj hback).symm
  rw [b64urlDecode, hstrip, List.length_map, if_neg, if_pos hall, hstandard,
    htext, decodeGroups_encodeGroups]
  rw [List.map_eq_nil_iff]
  exact fun hor => hor.elim hne hlen

theorem decodeField_b64urlEncode {bs : Bytes} {code : WebAuthnError}
    (h : bs ≠ []) : decodeField (b64urlEncode bs) code = .ok bs := by
  rw [decodeField, b64urlDecode_b64urlEncode h]
  rfl

/-! ## What else is read -/

/-- Nothing around the text is cut off, and the last letter has no bits that go
into no byte. -/
structure Canonical (s : String) : Prop where
  bare : strip s = s
  full : spareBits (s.toList.map standardLetter) = 0

theorem urlSafe_standardLetter {c : Char} (h : urlLetter c = true) :
    urlSafe (standardLetter c) = c := by
  by_cases hminus : c = '-'
  · rw [hminus]
    rfl
  · by_cases hunder : c = '_'
    · rw [hunder]
      rfl
    · rw [standardLetter, if_neg hminus, if_neg hunder, urlSafe, if_neg, if_neg]
      · rintro rfl
        exact absurd h (by decide)
      · rintro rfl
        exact absurd h (by decide)

theorem standardLetter_ne_pad {c : Char} (h : urlLetter c = true) :
    standardLetter c ≠ '=' := by
  intro heq
  have hback := urlSafe_standardLetter h
  rw [heq] at hback
  rw [← hback] at h
  exact absurd h (by decide)

/-- What `b64url_decode` reads, and from what. -/
structure Reads (s : String) (bs : Bytes) : Prop where
  letters : ∀ c ∈ (strip s).toList, urlLetter c = true
  groups : decodeGroups ((strip s).toList.map standardLetter ++
    padding ((strip s).toList.map standardLetter)) = some bs

theorem reads_of_decode {s : String} {bs : Bytes} (h : b64urlDecode s = some bs) :
    Reads s bs := by
  simp only [b64urlDecode] at h
  split at h
  · cases h
  · split at h
    · next hall =>
        refine ⟨List.all_eq_true.mp hall, ?_⟩
        rw [padding, List.length_map]
        exact h
    · cases h

/-- A canonical text is written for its bytes. -/
theorem Canonical.encode {s : String} {bs : Bytes} (h : Canonical s)
    (hreads : Reads s bs) : b64urlEncode bs = s := by
  obtain ⟨hletters, hgroups⟩ := hreads
  rw [h.bare] at hletters hgroups
  have hstandard : ∀ c ∈ s.toList.map standardLetter, c ≠ '=' := by
    intro c hc
    obtain ⟨d, hd, rfl⟩ := List.mem_map.mp hc
    exact standardLetter_ne_pad (hletters d hd)
  have hencode := (encodeGroups_padded_iff hstandard hgroups).mpr h.full
  have hkept : unpadded bs = s.toList.map standardLetter := by
    rw [unpadded, hencode, List.filter_append, List.filter_eq_self.mpr,
      List.filter_eq_nil_iff.mpr, List.append_nil]
    · intro c hc
      rw [List.eq_of_mem_replicate hc]
      decide
    · intro c hc
      exact bne_iff_ne.mpr (hstandard c hc)
  have hback : (s.toList.map standardLetter).map urlSafe = s.toList := by
    rw [List.map_map]
    refine (List.map_congr_left fun c hc => ?_).trans (List.map_id _)
    exact urlSafe_standardLetter (hletters c hc)
  rw [b64urlEncode, ← unpadded, hkept, hback, String.ofList_toList]

/-- What is written for bytes is canonical. -/
theorem canonical_encode (bs : Bytes) : Canonical (b64urlEncode bs) := by
  obtain ⟨hletters, -, htext⟩ := unpadded_shape bs
  have hstandard : (b64urlEncode bs).toList.map standardLetter = unpadded bs := by
    rw [b64urlEncode, String.toList_ofList, ← unpadded, List.map_map]
    refine (List.map_congr_left fun c hc => ?_).trans (List.map_id _)
    obtain ⟨n, hn, rfl⟩ := hletters c hc
    exact (url_letter n hn).1
  have hpad : ∀ c ∈ unpadded bs, c ≠ '=' := by
    intro c hc
    obtain ⟨n, hn, rfl⟩ := hletters c hc
    exact letter_ne_pad n hn
  constructor
  · refine strip_eq_self_iff.mpr ?_
    rw [b64urlEncode, String.toList_ofList]
    refine trim_eq_self_of_none fun c hc => ?_
    obtain ⟨d, hd, rfl⟩ := List.mem_map.mp hc
    obtain ⟨n, hn, rfl⟩ := hletters d hd
    exact (url_letter n hn).2.2.1
  · have hdecode := decodeGroups_encodeGroups bs
    rw [← htext] at hdecode
    rw [hstandard]
    exact (encodeGroups_padded_iff hpad hdecode).mp htext.symm

/-- What is written for bytes is read back. A text that is read is what is
written for its bytes exactly where it is canonical, and two canonical texts
with the same bytes are the same. -/
theorem b64url_one_spelling_iff (s t : String) (bs : Bytes) :
    (bs ≠ [] → b64urlDecode (b64urlEncode bs) = some bs) ∧
      (b64urlDecode s = some bs → (b64urlEncode bs = s ↔ Canonical s)) ∧
      (b64urlDecode s = some bs → b64urlDecode t = some bs →
        Canonical s → Canonical t → s = t) := by
  refine ⟨fun hne => b64urlDecode_b64urlEncode hne, fun hs => ?_, ?_⟩
  · constructor
    · intro hencode
      rw [← hencode]
      exact canonical_encode bs
    · exact fun hcanonical => hcanonical.encode (reads_of_decode hs)
  · intro hs ht hcs hct
    rw [← hcs.encode (reads_of_decode hs), hct.encode (reads_of_decode ht)]

/-- Two spellings of one zero byte. -/
theorem b64url_two_spellings :
    b64urlDecode "AB" = some [0] ∧ b64urlDecode "AA" = some [0] ∧
      b64urlEncode [0] ≠ "AB" := by
  decide

end NodeLink.Proofs.Base64Url
