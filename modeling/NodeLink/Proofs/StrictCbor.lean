import Mathlib
import NodeLink.Lib.Readers
import NodeLink.Server.Cbor

/-!
# Strict CBOR

The documented subset as a grammar over bytes. `decode` keeps to it but for
the simple values: the decoder reads the argument of a head before it looks at
the major type, so that a longer head, the head of a float among them, passes
for `false`, `true` and `null`.
-/

namespace NodeLink.Proofs.StrictCbor

open Lib Server.Cbor

/-! ## The grammar -/

/-- The head of an item: its major type and its argument, which stands in the
first byte or in the 1, 2, 4 or 8 bytes that follow. -/
inductive Head (major argument : Nat) : Bytes → Prop
  | short {initial : UInt8} (hsize : argument < 24)
      (hinitial : initial.toNat = major * 32 + argument) :
      Head major argument [initial]
  | long {initial : UInt8} {k : Nat} {bs : Bytes} (hk : k < 4)
      (hinitial : initial.toNat = major * 32 + (24 + k))
      (hlength : bs.length = 2 ^ k) (hvalue : unpackBig bs = argument) :
      Head major argument (initial :: bs)

/-- The simple values there are. -/
def simpleValue : Nat → Option Value
  | 20 => some (.bool false)
  | 21 => some (.bool true)
  | 22 => some .null
  | _ => none

/-- A scalar, and the key it is of a dictionary, where `True == 1`. -/
inductive ScalarKey : Value → Key → Prop
  | int {i : Int} : ScalarKey (.int i) (.int i)
  | bytes {bs : Bytes} : ScalarKey (.bytes bs) (.bytes bs)
  | text {s : List Char} : ScalarKey (.text s) (.text s)
  | false : ScalarKey (.bool false) (.int 0)
  | true : ScalarKey (.bool true) (.int 1)

mutual

/-- An item of at most so many levels, by its value and its bytes; `n` of its
simple values stand under a head of more than one byte. -/
inductive Item : (levels n : Nat) → Value → Bytes → Prop
  | unsigned {l i : Nat} {h : Bytes} : Head 0 i h → Item (l + 1) 0 (.int i) h
  | negative {l i : Nat} {h : Bytes} : Head 1 i h →
    Item (l + 1) 0 (.int (-1 - i)) h
  | bytes {l : Nat} {h bs : Bytes} : Head 2 bs.length h →
      bs.length ≤ maxStringBytes → Item (l + 1) 0 (.bytes bs) (h ++ bs)
  | text {l : Nat} {h : Bytes} {s : List Char} : Head 3 (utf8 s).length h →
      (utf8 s).length ≤ maxStringBytes → Item (l + 1) 0 (.text s) (h ++ utf8 s)
  | array {l n : Nat} {h body : Bytes} {vs : List Value} : Head 4 vs.length h →
      vs.length ≤ maxItems → Items l n vs body →
        Item (l + 1) n (.array vs) (h ++ body)
  | map {l n : Nat} {h body : Bytes} {ms : List (Key × Value)} :
      Head 5 ms.length h → ms.length ≤ maxItems → Members l n ms body →
      (ms.map Prod.fst).Nodup → Item (l + 1) n (.map ms) (h ++ body)
  | simple {l a : Nat} {v : Value} {initial : UInt8} : simpleValue a = some v →
      initial.toNat = 7 * 32 + a → Item (l + 1) 0 v [initial]
  | longSimple {l a k : Nat} {v : Value} {initial : UInt8} {bs : Bytes} :
      simpleValue a = some v → k < 4 → initial.toNat = 7 * 32 + (24 + k) →
      bs.length = 2 ^ k → unpackBig bs = a → Item (l + 1) 1 v (initial :: bs)

inductive Items : (levels n : Nat) → List Value → Bytes → Prop
  | nil {l : Nat} : Items l 0 [] []
  | cons {l n n' : Nat} {v : Value} {vs : List Value} {bs bs' : Bytes} :
      Item l n v bs → Items l n' vs bs' → Items l (n + n') (v :: vs) (bs ++ bs')

/-- The members of a map; a key is a scalar. -/
inductive Members : (levels n : Nat) → List (Key × Value) → Bytes → Prop
  | nil {l : Nat} : Members l 0 [] []
  | cons {l n n' n'' : Nat} {k v : Value} {key : Key} {ms : List (Key × Value)}
      {bs bs' bs'' : Bytes} : Item l n k bs → ScalarKey k key →
      Item l n' v bs' → Members l n'' ms bs'' →
      Members l (n + (n' + n'')) ((key, v) :: ms) (bs ++ (bs' ++ bs''))

end

/-- The bytes are one item of the documented subset, and this is its value. -/
def Documented (data : Bytes) (v : Value) : Prop := Item (maxDepth + 1) 0 v data

/-- The bytes are an item but for simple values under longer heads. -/
def LongSimples (data : Bytes) : Prop :=
  ∃ n v, Item (maxDepth + 1) (n + 1) v data

/-! ## Reading heads and strings -/

theorem take_readsAs (count : Nat) :
    ReadsAs (take count) fun chunk text =>
      chunk = text ∧ text.length = count := by
  intro data v rest
  unfold take
  split
  · next hshort =>
      constructor
      · intro h
        cases h
      · rintro ⟨text, ⟨-, hlength⟩, rfl⟩
        rw [List.length_append] at hshort
        omega
  · next hlong =>
      constructor
      · intro h
        obtain ⟨rfl, rfl⟩ := Prod.mk.inj (Option.some.inj h)
        refine ⟨_, ⟨rfl, ?_⟩, (List.take_append_drop count data).symm⟩
        rw [List.length_take]
        omega
      · rintro ⟨text, ⟨rfl, rfl⟩, rfl⟩
        rw [List.take_left, List.drop_left]

theorem head_eq_some {data rest : Bytes} {major argument : Nat} :
    head data = some (major, argument, rest) ↔
      ∃ h, Head major argument h ∧ data = h ++ rest := by
  constructor
  · intro h
    cases data with
    | nil => cases h
    | cons initial tail =>
        simp only [head] at h
        split at h
        · next hsize =>
            obtain ⟨rfl, rfl, rfl⟩ := by simpa using h
            exact ⟨_, .short hsize (by omega), rfl⟩
        split at h
        · next hbig hsize =>
            obtain ⟨⟨chunk, tail'⟩, htake, hr⟩ := Option.map_eq_some_iff.mp h
            obtain ⟨rfl, rfl, rfl⟩ := by simpa using hr
            obtain ⟨text, ⟨rfl, hlength⟩, rfl⟩ :=
              (take_readsAs _).exists_text htake
            refine ⟨_, .long (k := initial.toNat % 32 - 24) ?_ ?_ hlength rfl,
              rfl⟩
            · omega
            · omega
        · cases h
  · rintro ⟨h, hhead, rfl⟩
    cases hhead with
    | @short initial hsize hinitial =>
        have hmajor : initial.toNat / 32 = major := by omega
        have hinfo : initial.toNat % 32 = argument := by omega
        rw [List.cons_append, List.nil_append, head]
        simp only [hmajor, hinfo]
        rw [if_pos hsize]
    | @long initial k bs hk hinitial hlength hvalue =>
        have hmajor : initial.toNat / 32 = major := by omega
        have hinfo : initial.toNat % 32 = 24 + k := by omega
        rw [List.cons_append, head]
        simp only [hmajor, hinfo]
        rw [if_neg (by omega), if_pos (by omega), Nat.add_sub_cancel_left,
          (take_readsAs _).read_append ⟨rfl, hlength⟩, Option.map_some, hvalue]

/-! ## Items one after the other -/

theorem items_eq_some {l : Nat} {item : Bytes → Option (Value × Bytes)}
    (hitem : ReadsAs item fun v bs => ∃ n, Item l n v bs) {count : Nat}
    {data rest : Bytes} {vs : List Value} :
    items item count data = some (vs, rest) ↔
      vs.length = count ∧ ∃ bs n, Items l n vs bs ∧ data = bs ++ rest := by
  induction count generalizing data vs with
  | zero =>
      constructor
      · intro h
        obtain ⟨rfl, rfl⟩ := Prod.mk.inj (Option.some.inj h)
        exact ⟨rfl, [], 0, .nil, rfl⟩
      · rintro ⟨hlength, bs, n, hitems, rfl⟩
        obtain rfl := List.eq_nil_of_length_eq_zero hlength
        cases hitems
        rfl
  | succ count ih =>
      simp only [items, Option.bind_eq_bind, Option.bind_eq_some_iff]
      constructor
      · rintro ⟨⟨v, data'⟩, hv, ⟨vs', rest'⟩, hvs, h⟩
        obtain ⟨rfl, rfl⟩ := Prod.mk.inj (Option.some.inj h)
        obtain ⟨bs, ⟨n, hone⟩, rfl⟩ := hitem.exists_text hv
        obtain ⟨rfl, bs', n', hmore, rfl⟩ := ih.mp hvs
        exact ⟨rfl, bs ++ bs', n + n', .cons hone hmore,
          by rw [List.append_assoc]⟩
      · rintro ⟨hlength, bs, n, hitems, rfl⟩
        cases hitems with
        | nil => cases hlength
        | @cons _ n n' v vs bs bs' hone hmore =>
            refine ⟨(v, bs' ++ rest), ?_, (vs, rest), ?_, rfl⟩
            · rw [List.append_assoc]
              exact hitem.read_append ⟨n, hone⟩ _
            · exact ih.mpr ⟨Nat.succ.inj hlength, bs', n', hmore, rfl⟩

theorem nodup_keys_nil : (([] : List (Key × Value)).map Prod.fst).Nodup :=
  List.nodup_nil

/-- A member may be added under a key that is free. -/
theorem nodup_keys_snoc {result : List (Key × Value)} {key : Key} {v : Value} :
    ((result ++ [(key, v)]).map Prod.fst).Nodup ↔
      (result.map Prod.fst).Nodup ∧
        (result.all fun m => decide (m.1 ≠ key)) = true := by
  rw [List.map_append, List.nodup_append, List.all_eq_true]
  constructor
  · intro h
    refine ⟨h.1, fun m hm => decide_eq_true ?_⟩
    exact h.2.2 _ (List.mem_map_of_mem hm) _ (List.mem_singleton.mpr rfl)
  · intro h
    refine ⟨h.1, List.nodup_singleton _, fun k hk k' hk' => ?_⟩
    obtain ⟨m, hm, rfl⟩ := List.mem_map.mp hk
    obtain rfl := List.mem_singleton.mp hk'
    exact of_decide_eq_true (h.2 m hm)

theorem asKey_eq_some {v : Value} {key : Key} :
    v.asKey = some key ↔ ScalarKey v key := by
  constructor
  · intro h
    cases v with
    | int i =>
        obtain rfl := Option.some.inj h
        exact .int
    | bytes bs =>
        obtain rfl := Option.some.inj h
        exact .bytes
    | text s =>
        obtain rfl := Option.some.inj h
        exact .text
    | array items => cases h
    | map members => cases h
    | bool b =>
        obtain rfl := Option.some.inj h
        cases b with
        | false => exact .false
        | true => exact .true
    | null => cases h
  · intro h
    cases h with
    | int => rfl
    | bytes => rfl
    | text => rfl
    | false => rfl
    | true => rfl

theorem members_eq_some {l : Nat} {item : Bytes → Option (Value × Bytes)}
    (hitem : ReadsAs item fun v bs => ∃ n, Item l n v bs) {count : Nat}
    {data rest : Bytes} {result ms : List (Key × Value)}
    (hresult : (result.map Prod.fst).Nodup) :
    members item count result data = some (ms, rest) ↔
      ∃ ms', ms = result ++ ms' ∧ ms'.length = count ∧ (ms.map Prod.fst).Nodup ∧
        ∃ bs n, Members l n ms' bs ∧ data = bs ++ rest := by
  induction count generalizing data result with
  | zero =>
      constructor
      · intro h
        obtain ⟨rfl, rfl⟩ := Prod.mk.inj (Option.some.inj h)
        exact ⟨[], (List.append_nil _).symm, rfl, hresult, [], 0, .nil, rfl⟩
      · rintro ⟨ms', rfl, hlength, -, bs, n, hmembers, rfl⟩
        obtain rfl := List.eq_nil_of_length_eq_zero hlength
        cases hmembers
        rw [List.append_nil]
        rfl
  | succ count ih =>
      simp only [members, Option.bind_eq_bind, Option.bind_eq_some_iff]
      constructor
      · rintro ⟨⟨k, data'⟩, hk, key, hkey, u, hfree, ⟨v, data''⟩, hv, h⟩
        have hnew : ((result ++ [(key, v)]).map Prod.fst).Nodup := by
          refine nodup_keys_snoc.mpr ⟨hresult, ?_⟩
          exact (Option.guard_eq_some' _).mp hfree
        obtain ⟨bs, ⟨n, hone⟩, rfl⟩ := hitem.exists_text hk
        obtain ⟨bs', ⟨n', htwo⟩, rfl⟩ := hitem.exists_text hv
        obtain ⟨ms', rfl, hlength, hnodup, bs'', n'', hmore, rfl⟩ :=
          (ih hnew).mp h
        refine ⟨(key, v) :: ms', by simp, by simpa using hlength, hnodup, _, _,
          .cons hone (asKey_eq_some.mp hkey) htwo hmore, ?_⟩
        simp only [List.append_assoc]
      · rintro ⟨ms', rfl, hlength, hnodup, bs, n, hmembers, rfl⟩
        cases hmembers with
        | nil => cases hlength
        | @cons _ n n' n'' k v key ms' bs bs' bs'' hone hkey htwo hmore =>
            have hsplit :
                result ++ (key, v) :: ms' = (result ++ [(key, v)]) ++ ms' := by
              simp
            have hnew : ((result ++ [(key, v)]).map Prod.fst).Nodup := by
              rw [hsplit, List.map_append] at hnodup
              exact hnodup.of_append_left
            refine ⟨(k, bs' ++ (bs'' ++ rest)), ?_, key,
              asKey_eq_some.mpr hkey, (), ?_,
              (v, bs'' ++ rest), hitem.read_append ⟨n', htwo⟩ _, ?_⟩
            · simp only [List.append_assoc]
              exact hitem.read_append ⟨n, hone⟩ _
            · exact (Option.guard_eq_some' _).mpr (nodup_keys_snoc.mp hnew).2
            · exact (ih hnew).mpr ⟨ms', hsplit, Nat.succ.inj hlength, hnodup,
                bs'', n'', hmore, rfl⟩

/-! ## Items -/

theorem readUtf8_eq_some {raw : Bytes} {s : List Char} :
    readUtf8 raw = some s ↔ raw = utf8 s := by
  constructor
  · intro h
    unfold readUtf8 at h
    split at h
    · next hraw =>
        obtain rfl := Option.some.inj h
        exact hraw.symm
    · cases h
  · rintro rfl
    exact readUtf8_utf8 s

/-- A simple value is there under any head with its number. -/
theorem item_simple {l a : Nat} {v : Value} {h : Bytes}
    (hv : simpleValue a = some v)
    (hhead : Head 7 a h) : ∃ n, Item (l + 1) n v h := by
  cases hhead with
  | short hsize hinitial => exact ⟨0, .simple hv hinitial⟩
  | long hk hinitial hlength hvalue =>
      exact ⟨1, .longSimple hv hk hinitial hlength hvalue⟩

/-- What is read a level down is read as items, and so it is here. -/
theorem item_of_decodeItem {l : Nat}
    (hitem : ReadsAs (decodeItem l) fun v bs => ∃ n, Item l n v bs)
    {data rest : Bytes} {v : Value}
      (h : decodeItem (l + 1) data = some (v, rest)) :
    ∃ bs, (∃ n, Item (l + 1) n v bs) ∧ data = bs ++ rest := by
  simp only [decodeItem, Option.bind_eq_bind, Option.bind_eq_some_iff] at h
  obtain ⟨⟨major, argument, tail⟩, hread, h⟩ := h
  obtain ⟨hd, hhead, rfl⟩ := head_eq_some.mp hread
  simp only [] at h
  split at h
  · obtain ⟨rfl, rfl⟩ := Prod.mk.inj (Option.some.inj h)
    exact ⟨hd, ⟨0, .unsigned hhead⟩, rfl⟩
  · obtain ⟨rfl, rfl⟩ := Prod.mk.inj (Option.some.inj h)
    exact ⟨hd, ⟨0, .negative hhead⟩, rfl⟩
  · simp only [Option.bind_eq_some_iff] at h
    obtain ⟨u, hsize, ⟨bs, tail'⟩, htake, h⟩ := h
    obtain ⟨rfl, rfl⟩ := Prod.mk.inj (Option.some.inj h)
    obtain ⟨text, ⟨rfl, rfl⟩, rfl⟩ := (take_readsAs _).exists_text htake
    have hsize := (Option.guard_eq_some' _).mp hsize
    exact ⟨hd ++ bs, ⟨0, .bytes hhead hsize⟩, by rw [List.append_assoc]⟩
  · simp only [Option.bind_eq_some_iff] at h
    obtain ⟨u, hsize, ⟨raw, tail'⟩, htake, s, hs, h⟩ := h
    obtain ⟨rfl, rfl⟩ := Prod.mk.inj (Option.some.inj h)
    obtain ⟨text, ⟨rfl, rfl⟩, rfl⟩ := (take_readsAs _).exists_text htake
    obtain rfl := readUtf8_eq_some.mp hs
    have hsize := (Option.guard_eq_some' _).mp hsize
    exact ⟨hd ++ utf8 s, ⟨0, .text hhead hsize⟩, by rw [List.append_assoc]⟩
  · simp only [Option.bind_eq_some_iff] at h
    obtain ⟨u, hsize, ⟨vs, tail'⟩, hvs, h⟩ := h
    obtain ⟨rfl, rfl⟩ := Prod.mk.inj (Option.some.inj h)
    obtain ⟨rfl, bs, n, hitems, rfl⟩ := (items_eq_some hitem).mp hvs
    have hsize := (Option.guard_eq_some' _).mp hsize
    exact ⟨hd ++ bs, ⟨n, .array hhead hsize hitems⟩, by rw [List.append_assoc]⟩
  · simp only [Option.bind_eq_some_iff] at h
    obtain ⟨u, hsize, ⟨ms, tail'⟩, hms, h⟩ := h
    obtain ⟨rfl, rfl⟩ := Prod.mk.inj (Option.some.inj h)
    obtain ⟨ms', rfl, rfl, hnodup, bs, n, hmembers, rfl⟩ :=
      (members_eq_some hitem nodup_keys_nil).mp hms
    have hsize := (Option.guard_eq_some' _).mp hsize
    exact ⟨hd ++ bs, ⟨n, .map hhead hsize hmembers hnodup⟩,
      by rw [List.append_assoc]⟩
  · split at h
    · obtain ⟨rfl, rfl⟩ := Prod.mk.inj (Option.some.inj h)
      exact ⟨hd, item_simple rfl hhead, rfl⟩
    · obtain ⟨rfl, rfl⟩ := Prod.mk.inj (Option.some.inj h)
      exact ⟨hd, item_simple rfl hhead, rfl⟩
    · obtain ⟨rfl, rfl⟩ := Prod.mk.inj (Option.some.inj h)
      exact ⟨hd, item_simple rfl hhead, rfl⟩
    · cases h
  · cases h

/-- Items a level down are read, and so they are here. -/
theorem decodeItem_of_item {l n : Nat}
    (hitem : ReadsAs (decodeItem l) fun v bs => ∃ n, Item l n v bs)
    {v : Value} {bs : Bytes} (h : Item (l + 1) n v bs) (rest : Bytes) :
    decodeItem (l + 1) (bs ++ rest) = some (v, rest) := by
  have hread : ∀ {major argument : Nat} {hd tail : Bytes},
    Head major argument hd →
      head (hd ++ tail) = some (major, argument, tail) := fun {_ _ _ _} h =>
    head_eq_some.mpr ⟨_, h, rfl⟩
  have hsimple : ∀ {a : Nat} {hd : Bytes}, simpleValue a = some v →
    Head 7 a hd →
      decodeItem (l + 1) (hd ++ rest) = some (v, rest) := by
    intro a hd hv hhead
    simp only [decodeItem, hread hhead, Option.bind_eq_bind, Option.bind_some]
    unfold simpleValue at hv
    split at hv
    · cases hv
      rfl
    · cases hv
      rfl
    · cases hv
      rfl
    · cases hv
  have hguard : ∀ {p : Prop} [Decidable p], p →
    guard (f := Option) p = some () :=
    fun h => (Option.guard_eq_some' _).mpr h
  cases h with
  | unsigned hhead =>
      simp only [decodeItem, hread hhead, Option.bind_eq_bind, Option.bind_some]
      rfl
  | negative hhead =>
      simp only [decodeItem, hread hhead, Option.bind_eq_bind, Option.bind_some]
      rfl
  | bytes hhead hsize =>
      rw [List.append_assoc]
      simp only [decodeItem, hread hhead, Option.bind_eq_bind, Option.bind_some,
        hguard hsize, (take_readsAs _).read_append ⟨rfl, rfl⟩]
      rfl
  | text hhead hsize =>
      rw [List.append_assoc]
      simp only [decodeItem, hread hhead, Option.bind_eq_bind, Option.bind_some,
        hguard hsize, (take_readsAs _).read_append ⟨rfl, rfl⟩, readUtf8_utf8]
      rfl
  | @array _ _ _ body vs hhead hsize hitems =>
      have hvs : items (decodeItem l) vs.length (body ++ rest) =
        some (vs, rest) :=
        (items_eq_some hitem).mpr ⟨rfl, body, n, hitems, rfl⟩
      rw [List.append_assoc]
      simp only [decodeItem, hread hhead, Option.bind_eq_bind, Option.bind_some,
        hguard hsize, hvs]
      rfl
  | @map _ _ _ body ms hhead hsize hmembers hnodup =>
      have hms : members (decodeItem l) ms.length [] (body ++ rest) =
        some (ms, rest) :=
        (members_eq_some hitem nodup_keys_nil).mpr
          ⟨ms, rfl, rfl, hnodup, body, n, hmembers, rfl⟩
      rw [List.append_assoc]
      simp only [decodeItem, hread hhead, Option.bind_eq_bind, Option.bind_some,
        hguard hsize, hms]
      rfl
  | simple hv hinitial =>
      refine hsimple hv (.short ?_ hinitial)
      unfold simpleValue at hv
      split at hv
      · omega
      · omega
      · omega
      · cases hv
  | longSimple hv hk hinitial hlength hvalue =>
      exact hsimple hv (.long hk hinitial hlength hvalue)

theorem decodeItem_readsAs (l : Nat) :
    ReadsAs (decodeItem l) fun v bs => ∃ n, Item l n v bs := by
  induction l with
  | zero =>
      intro data v rest
      constructor
      · intro h
        cases h
      · rintro ⟨bs, ⟨n, h⟩, -⟩
        cases h
  | succ l ih =>
      intro data v rest
      constructor
      · exact item_of_decodeItem ih
      · rintro ⟨bs, ⟨n, h⟩, rfl⟩
        exact decodeItem_of_item ih h rest

/-- `decode` takes the items whose simple values stand under any head. -/
theorem decode_eq_some {data : Bytes} {v : Value} :
    decode data = some v ↔ ∃ n, Item (maxDepth + 1) n v data := by
  constructor
  · intro h
    unfold decode decodePrefix at h
    cases hread : decodeItem (maxDepth + 1) data with
    | none =>
        rw [hread] at h
        cases h
    | some r =>
        rw [hread, Option.map_some] at h
        obtain ⟨bs, hitem, rfl⟩ := (decodeItem_readsAs _).exists_text hread
        simp only [List.length_append] at h
        split at h
        · next hconsumed =>
            obtain rfl := Option.some.inj h
            obtain hr : r.2 = [] := List.eq_nil_of_length_eq_zero (by omega)
            rwa [hr, List.append_nil]
        · cases h
  · intro h
    have hread := (decodeItem_readsAs _).read_append h []
    rw [List.append_nil] at hread
    rw [decode, decodePrefix, hread]
    simp

/-! ## The simple values under longer heads -/

/-- The body of an item stands behind its head. -/
theorem body_unique {major argument : Nat} {h h' body body' : Bytes}
    (hhead : Head major argument h) (hhead' : Head major argument h')
    (heq : h ++ body = h' ++ body') : body = body' := by
  have hread : head (h ++ body) = some (major, argument, body) :=
    head_eq_some.mpr ⟨h, hhead, rfl⟩
  rw [heq, head_eq_some.mpr ⟨h', hhead', rfl⟩] at hread
  simpa using hread.symm

section Counts

variable {l : Nat}
  (hone : ∀ {n n' : Nat} {v : Value} {bs bs' : Bytes},
    Item l n v bs → Item l n' v bs' → bs = bs' → n = n')

include hone

theorem items_count_unique {n n' : Nat} {vs : List Value} {bs bs' : Bytes}
    (h : Items l n vs bs) (h' : Items l n' vs bs') (heq : bs = bs') :
    n = n' := by
  induction vs generalizing n n' bs bs' with
  | nil =>
      cases h
      cases h'
      rfl
  | cons v vs ih =>
      cases h with
      | cons hitem hmore =>
      cases h' with
      | cons hitem' hmore' =>
          obtain ⟨-, hbs, hrest⟩ :=
            (decodeItem_readsAs l).unique ⟨_, hitem⟩ ⟨_, hitem'⟩ heq
          rw [hone hitem hitem' hbs, ih hmore hmore' hrest]

theorem members_count_unique {n n' : Nat} {ms : List (Key × Value)}
    {bs bs' : Bytes} (h : Members l n ms bs) (h' : Members l n' ms bs')
    (heq : bs = bs') : n = n' := by
  induction ms generalizing n n' bs bs' with
  | nil =>
      cases h
      cases h'
      rfl
  | cons m ms ih =>
      cases h with
      | cons hkey _ hvalue hmore =>
      cases h' with
      | cons hkey' _ hvalue' hmore' =>
          obtain ⟨rfl, hk, hrest⟩ :=
            (decodeItem_readsAs l).unique ⟨_, hkey⟩ ⟨_, hkey'⟩ heq
          obtain ⟨-, hv, hrest⟩ :=
            (decodeItem_readsAs l).unique ⟨_, hvalue⟩ ⟨_, hvalue'⟩ hrest
          rw [hone hkey hkey' hk, hone hvalue hvalue' hv, ih hmore hmore' hrest]

end Counts

/-- The value is one of the three simple ones. -/
def IsSimple : Value → Prop
  | .bool _ => True
  | .null => True
  | _ => False

theorem simpleValue_isSimple {a : Nat} {v : Value}
    (h : simpleValue a = some v) :
    IsSimple v := by
  unfold simpleValue at h
  split at h
  · cases h
    trivial
  · cases h
    trivial
  · cases h
    trivial
  · cases h

theorem item_array {l n : Nat} {vs : List Value} {bs : Bytes}
    (h : Item (l + 1) n (.array vs) bs) :
    ∃ hd body, Head 4 vs.length hd ∧ Items l n vs body ∧ bs = hd ++ body := by
  cases h with
  | array hhead _ hitems => exact ⟨_, _, hhead, hitems, rfl⟩
  | simple hv _ => exact (simpleValue_isSimple hv).elim
  | longSimple hv _ _ _ _ => exact (simpleValue_isSimple hv).elim

theorem item_map {l n : Nat} {ms : List (Key × Value)} {bs : Bytes}
    (h : Item (l + 1) n (.map ms) bs) :
    ∃ hd body, Head 5 ms.length hd ∧ Members l n ms body ∧ bs = hd ++ body := by
  cases h with
  | map hhead _ hmembers _ => exact ⟨_, _, hhead, hmembers, rfl⟩
  | simple hv _ => exact (simpleValue_isSimple hv).elim
  | longSimple hv _ _ _ _ => exact (simpleValue_isSimple hv).elim

/-- Outside arrays and maps only a simple value counts, by its length. -/
theorem item_scalar_count {l n : Nat} {v : Value} {bs : Bytes}
    (h : Item (l + 1) n v bs) (harray : ∀ vs, v ≠ .array vs)
    (hmap : ∀ ms, v ≠ .map ms) :
    (n = 1 ∧ IsSimple v ∧ bs.length ≠ 1) ∨
      (n = 0 ∧ (IsSimple v → bs.length = 1)) := by
  cases h with
  | array _ _ _ => exact absurd rfl (harray _)
  | map _ _ _ _ => exact absurd rfl (hmap _)
  | unsigned _ | negative _ | bytes _ _ | text _ _ =>
      exact .inr ⟨rfl, False.elim⟩
  | simple _ _ => exact .inr ⟨rfl, fun _ => rfl⟩
  | @longSimple _ _ k _ _ _ hv _ _ hlength _ =>
      refine .inl ⟨rfl, simpleValue_isSimple hv, ?_⟩
      have hpos := Nat.two_pow_pos k
      rw [List.length_cons, hlength]
      omega

theorem scalar_count_unique {l n n' : Nat} {v : Value} {bs : Bytes}
    (h : Item (l + 1) n v bs) (h' : Item (l + 1) n' v bs)
    (harray : ∀ vs, v ≠ .array vs) (hmap : ∀ ms, v ≠ .map ms) : n = n' := by
  rcases item_scalar_count h harray hmap with ⟨rfl, hs, hlength⟩ |
    ⟨rfl, hlength⟩ <;>
  rcases item_scalar_count h' harray hmap with ⟨rfl, hs', hlength'⟩ |
    ⟨rfl, hlength'⟩
  · rfl
  · exact absurd (hlength' hs) hlength
  · exact absurd (hlength hs') hlength'
  · rfl

/-- The bytes of an item say how many of its simple values stand under longer
heads. -/
theorem item_count_unique {l n n' : Nat} {v : Value} {bs bs' : Bytes}
    (h : Item l n v bs) (h' : Item l n' v bs') (heq : bs = bs') : n = n' := by
  induction l generalizing n n' v bs bs' with
  | zero => cases h
  | succ l ih =>
      subst heq
      cases v with
      | array vs =>
          obtain ⟨hd, body, hhead, hitems, rfl⟩ := item_array h
          obtain ⟨hd', body', hhead', hitems', heq⟩ := item_array h'
          exact items_count_unique ih hitems hitems'
            (body_unique hhead hhead' heq)
      | map ms =>
          obtain ⟨hd, body, hhead, hmembers, rfl⟩ := item_map h
          obtain ⟨hd', body', hhead', hmembers', heq⟩ := item_map h'
          exact members_count_unique ih hmembers hmembers'
            (body_unique hhead hhead' heq)
      | int _ | bytes _ | text _ | bool _ | null =>
          exact scalar_count_unique h h' (by simp) (by simp)

/-- `decode` returns the value of an item of the documented subset, and of
nothing else, except where simple values stand under longer heads. -/
theorem decode_documented_iff (data : Bytes) :
    (∀ v, decode data = some v ↔ Documented data v) ↔ ¬ LongSimples data := by
  constructor
  · rintro hdoc ⟨n, v, hlong⟩
    have hshort := (hdoc v).mp (decode_eq_some.mpr ⟨n + 1, hlong⟩)
    have hcount := item_count_unique hlong hshort rfl
    omega
  · intro hnone v
    rw [decode_eq_some]
    constructor
    · rintro ⟨n, hitem⟩
      cases n with
      | zero => exact hitem
      | succ n => exact absurd ⟨n, v, hitem⟩ hnone
    · intro hitem
      exact ⟨0, hitem⟩

/-- `false` in two bytes, and the half-precision float of the bits `0x0014`. -/
theorem long_false_decoded :
    (decode [0xf8, 0x14] = some (.bool false) ∧
      ¬ Documented [0xf8, 0x14] (.bool false)) ∧
    (decode [0xf9, 0x00, 0x14] = some (.bool false) ∧
      ¬ Documented [0xf9, 0x00, 0x14] (.bool false)) := by
  have hone : ∀ {bs : Bytes}, Documented bs (.bool false) → bs.length = 1 := by
    intro bs h
    rcases item_scalar_count h (by simp) (by simp) with ⟨hn, -, -⟩ |
      ⟨-, hlength⟩
    · cases hn
    · exact hlength trivial
  exact ⟨⟨rfl, fun h => absurd (hone h) (by decide)⟩,
    ⟨rfl, fun h => absurd (hone h) (by decide)⟩⟩

end NodeLink.Proofs.StrictCbor
