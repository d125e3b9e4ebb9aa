import NodeLink.Lib.JsonRoundTrip

/-!
# Compact JSON text is unambiguous

A value is the only one with its compact text, whatever stands behind it and
however deep it is. The round trip of the decoder says the same up to the
decoder's nesting limit; here nothing is decoded but single strings and
numbers, and the induction is on one of the two values.

The second half is the encoder's default alphabet, which writes every
character outside printable ASCII as `\uXXXX`, in pairs above U+FFFF.
-/

namespace NodeLink.Lib

/-! ## Lists of texts -/

section Separated

variable {α : Type} (text : α → List Char) (close : Char)

/-- The rest of a list of texts after its first: each behind a comma, then
the closing character and `s`. -/
def tailText : List α → List Char → List Char
  | [], s => close :: s
  | a :: as, s => ',' :: (text a ++ tailText as s)

theorem intercalate_append (a : α) (as : List α) (s : List Char) :
    (lit1 ',').intercalate ((a :: as).map text) ++ close :: s =
      text a ++ tailText text close as s := by
  induction as generalizing a with
  | nil => simp [List.intercalate, tailText]
  | cons b as ih =>
      rw [List.map_cons, List.map_cons, intercalate_cons_cons, List.append_assoc,
        List.append_assoc]
      have hb := ih b
      rw [List.map_cons] at hb
      rw [hb]
      rfl

variable {text close}

/-- No other text of a `P` starts as this one does. -/
def Unambiguous (text : α → List Char) (P : α → Prop) (a : α) : Prop :=
  ∀ b s t, P b → EndsNumber s → EndsNumber t → text a ++ s = text b ++ t →
    a = b ∧ s = t

variable {P : α → Prop}

theorem endsNumber_tailText (hclose : close = ']' ∨ close = '}') (as : List α)
    (s : List Char) : EndsNumber (tailText text close as s) := by
  cases as with
  | nil => exact endsNumber_cons s (.inr hclose)
  | cons a as => exact endsNumber_cons _ (.inl rfl)

theorem tailText_injective (hclose : close = ']' ∨ close = '}')
    {as bs : List α} (has : ∀ a ∈ as, Unambiguous text P a)
    (hbs : ∀ b ∈ bs, P b) {s t : List Char}
    (h : tailText text close as s = tailText text close bs t) :
    as = bs ∧ s = t := by
  have hcomma : close ≠ ',' := by rcases hclose with rfl | rfl <;> decide
  induction as generalizing bs with
  | nil =>
      cases bs with
      | nil => exact ⟨rfl, (List.cons.inj h).2⟩
      | cons b bs => exact absurd (List.cons.inj h).1 hcomma
  | cons a as ih =>
      cases bs with
      | nil => exact absurd (List.cons.inj h).1.symm hcomma
      | cons b bs =>
          obtain ⟨rfl, htail⟩ := has a List.mem_cons_self b _ _
            (hbs b List.mem_cons_self) (endsNumber_tailText hclose as s)
            (endsNumber_tailText hclose bs t) (List.cons.inj h).2
          obtain ⟨rfl, hst⟩ := ih (fun x hx => has x (List.mem_cons_of_mem _ hx))
            (fun x hx => hbs x (List.mem_cons_of_mem _ hx)) htail
          exact ⟨rfl, hst⟩

/-- A bracketed list of texts determines the list. -/
theorem bracketed_injective (hclose : close = ']' ∨ close = '}')
    {as bs : List α} (has : ∀ a ∈ as, P a ∧ Unambiguous text P a)
    (hbs : ∀ b ∈ bs, P b)
    (hhead : ∀ a s, P a → (text a ++ s).head? ≠ some close) {s t : List Char}
    (h : (lit1 ',').intercalate (as.map text) ++ close :: s =
      (lit1 ',').intercalate (bs.map text) ++ close :: t) :
    as = bs ∧ s = t := by
  cases as with
  | nil =>
      cases bs with
      | nil => exact ⟨rfl, (List.cons.inj h).2⟩
      | cons b bs =>
          rw [intercalate_append] at h
          exact absurd (by rw [← h]; rfl) (hhead b (tailText text close bs t)
            (hbs b List.mem_cons_self))
  | cons a as =>
      cases bs with
      | nil =>
          rw [intercalate_append] at h
          exact absurd (by rw [h]; rfl) (hhead a (tailText text close as s)
            (has a List.mem_cons_self).1)
      | cons b bs =>
          rw [intercalate_append, intercalate_append] at h
          obtain ⟨rfl, htail⟩ := (has a List.mem_cons_self).2 b _ _
            (hbs b List.mem_cons_self) (endsNumber_tailText hclose as s)
            (endsNumber_tailText hclose bs t) h
          obtain ⟨rfl, hst⟩ := tailText_injective hclose
            (fun x hx => (has x (List.mem_cons_of_mem _ hx)).2)
            (fun x hx => hbs x (List.mem_cons_of_mem _ hx)) htail
          exact ⟨rfl, hst⟩

end Separated

/-! ## Values -/

section Values

variable {esc : Char → List Char}

/-- What the first character of a value's text says about the value. -/
inductive Shape where
  | null
  | yes
  | no
  | num
  | str
  | arr
  | obj

def Shape.of : Json String String → Shape
  | .null => .null
  | .bool true => .yes
  | .bool false => .no
  | .num _ => .num
  | .str _ => .str
  | .arr _ => .arr
  | .obj _ => .obj

def Shape.starts (c : Char) : Shape :=
  if c = 'n' then .null
  else if c = 't' then .yes
  else if c = 'f' then .no
  else if c = '"' then .str
  else if c = '[' then .arr
  else if c = '{' then .obj
  else .num

theorem head_jsonText (esc : Char → List Char) {v : Json String String}
    (hv : Numerals v) :
    ∃ c t, jsonText esc v = c :: t ∧ Shape.starts c = Shape.of v := by
  cases v with
  | null => exact ⟨'n', _, rfl, rfl⟩
  | bool b => cases b <;> exact ⟨_, _, rfl, rfl⟩
  | str s => exact ⟨'"', _, rfl, rfl⟩
  | arr vs => exact ⟨'[', _, jsonText_arr vs, rfl⟩
  | obj ms => exact ⟨'{', _, jsonText_obj ms, rfl⟩
  | num n =>
      obtain ⟨c, t, ht, hc⟩ := (Json.all_num.mp hv).head
      have hnot : ∀ x : Char, x ≠ '-' → x.isDigit = false → c ≠ x := by
        intro x hx hxd hcx
        subst hcx
        rcases hc with rfl | hc
        · exact hx rfl
        · rw [hxd] at hc
          cases hc
      refine ⟨c, t, ht, ?_⟩
      simp [Shape.starts, Shape.of, hnot 'n' (by decide) rfl,
        hnot 't' (by decide) rfl, hnot 'f' (by decide) rfl,
        hnot '"' (by decide) rfl, hnot '[' (by decide) rfl,
        hnot '{' (by decide) rfl]

theorem shape_eq {v w : Json String String} (hv : Numerals v) (hw : Numerals w)
    {s t : List Char} (h : jsonText esc v ++ s = jsonText esc w ++ t) :
    Shape.of v = Shape.of w := by
  obtain ⟨c, x, hc, hcv⟩ := head_jsonText esc hv
  obtain ⟨d, y, hd, hdw⟩ := head_jsonText esc hw
  rw [hc, hd] at h
  rw [← hcv, ← hdw, (List.cons.inj h).1]

theorem quoted_injective (hesc : Readable esc) {k l : String}
    {s t : List Char}
    (h : k.toList.flatMap esc ++ '"' :: s = l.toList.flatMap esc ++ '"' :: t) :
    k = l ∧ s = t := by
  have hk := readString_flatMap hesc k s
  rw [h, readString_flatMap hesc l t] at hk
  obtain ⟨rfl, rfl⟩ := Prod.mk.inj (Option.some.inj hk)
  exact ⟨rfl, rfl⟩

theorem unambiguous_memberText (hesc : Readable esc)
    {m : String × Json String String}
    (hm : Unambiguous (jsonText esc) Numerals m.2) :
    Unambiguous (memberText esc) (fun n => Numerals n.2) m := by
  intro n s t hn hs ht h
  rw [memberText_append, memberText_append] at h
  obtain ⟨hkey, hrest⟩ := quoted_injective hesc (List.cons.inj h).2
  obtain ⟨hval, hst⟩ := hm n.2 s t hn hs ht (List.cons.inj hrest).2
  exact ⟨Prod.ext hkey hval, hst⟩

theorem unambiguous_arr {vs : List (Json String String)}
    (hv : Numerals (.arr vs))
    (ih : ∀ v ∈ vs, Unambiguous (jsonText esc) Numerals v)
    {ws : List (Json String String)} (hw : Numerals (.arr ws))
    {s t : List Char}
    (h : jsonText esc (.arr vs) ++ s = jsonText esc (.arr ws) ++ t) :
    vs = ws ∧ s = t := by
  rw [jsonText_arr, jsonText_arr, List.cons_append, List.cons_append,
    List.append_assoc, List.append_assoc] at h
  refine bracketed_injective (.inl rfl)
    (fun v hmem => ⟨Json.all_arr.mp hv v hmem, ih v hmem⟩) (Json.all_arr.mp hw)
    ?_ (List.cons.inj h).2
  intro v r hnum
  obtain ⟨c, y, hc, -, hne⟩ := jsonText_head esc hnum
  rw [hc]
  simpa using hne

theorem unambiguous_obj (hesc : Readable esc)
    {ms : List (String × Json String String)} (hv : Numerals (.obj ms))
    (ih : ∀ m ∈ ms, Unambiguous (jsonText esc) Numerals m.2)
    {ns : List (String × Json String String)} (hw : Numerals (.obj ns))
    {s t : List Char}
    (h : jsonText esc (.obj ms) ++ s = jsonText esc (.obj ns) ++ t) :
    ms = ns ∧ s = t := by
  rw [jsonText_obj, jsonText_obj, List.cons_append, List.cons_append,
    List.append_assoc, List.append_assoc] at h
  refine bracketed_injective (.inr rfl)
    (fun m hmem => ⟨(Json.all_obj.mp hv m hmem).2,
      unambiguous_memberText hesc (ih m hmem)⟩)
    (fun n hmem => (Json.all_obj.mp hw n hmem).2) ?_ (List.cons.inj h).2
  intro m r _
  rw [memberText_append]
  exact fun hq => absurd (Option.some.inj hq) (by decide)

/-- A value is determined by its text. -/
theorem unambiguous_jsonText (hesc : Readable esc) {v : Json String String}
    (hv : Numerals v) : Unambiguous (jsonText esc) Numerals v := by
  induction v using Json.ind with
  | null =>
      intro w s t hw hs ht h
      have hshape := shape_eq hv hw h
      cases w with
      | null => exact ⟨rfl, List.append_cancel_left h⟩
      | bool b => cases b <;> cases hshape
      | num _ | str _ | arr _ | obj _ => cases hshape
  | bool b =>
      intro w s t hw hs ht h
      have hshape := shape_eq hv hw h
      cases w with
      | bool c =>
          cases b <;> cases c
          · exact ⟨rfl, List.append_cancel_left h⟩
          · cases hshape
          · cases hshape
          · exact ⟨rfl, List.append_cancel_left h⟩
      | null | num _ | str _ | arr _ | obj _ => cases b <;> cases hshape
  | num n =>
      intro w s t hw hs ht h
      have hshape := shape_eq hv hw h
      cases w with
      | num m =>
          have hn := (Json.all_num.mp hv).read s hs
          have htext : n.toList ++ s = m.toList ++ t := h
          rw [htext, (Json.all_num.mp hw).read t ht] at hn
          obtain ⟨hnm, hst⟩ := Prod.mk.inj (Option.some.inj hn)
          obtain rfl : m = n := String.ext hnm
          exact ⟨rfl, hst.symm⟩
      | bool b => cases b <;> cases hshape
      | null | str _ | arr _ | obj _ => cases hshape
  | str k =>
      intro w s t hw hs ht h
      have hshape := shape_eq hv hw h
      cases w with
      | str l =>
          have htext : '"' :: (k.toList.flatMap esc ++ '"' :: s) =
              '"' :: (l.toList.flatMap esc ++ '"' :: t) := by
            simpa [jsonText, Json.quoted, lit1] using h
          obtain ⟨rfl, hst⟩ := quoted_injective hesc (List.cons.inj htext).2
          exact ⟨rfl, hst⟩
      | bool b => cases b <;> cases hshape
      | null | num _ | arr _ | obj _ => cases hshape
  | arr vs ih =>
      intro w s t hw hs ht h
      have hshape := shape_eq hv hw h
      cases w with
      | arr ws =>
          obtain ⟨rfl, hst⟩ := unambiguous_arr hv
            (fun v hmem => ih v hmem (Json.all_arr.mp hv v hmem)) hw h
          exact ⟨rfl, hst⟩
      | bool b => cases b <;> cases hshape
      | null | num _ | str _ | obj _ => cases hshape
  | obj ms ih =>
      intro w s t hw hs ht h
      have hshape := shape_eq hv hw h
      cases w with
      | obj ns =>
          obtain ⟨rfl, hst⟩ := unambiguous_obj hesc hv
            (fun m hmem => ih m hmem (Json.all_obj.mp hv m hmem).2) hw h
          exact ⟨rfl, hst⟩
      | bool b => cases b <;> cases hshape
      | null | num _ | str _ | arr _ => cases hshape

/-- Two values with one text are equal, at any depth. -/
theorem eq_of_jsonText_eq (hesc : Readable esc) {v w : Json String String}
    (hv : Numerals v) (hw : Numerals w) (h : jsonText esc v = jsonText esc w) :
    v = w := by
  have hnil : EndsNumber [] := fun _ hc => absurd hc nofun
  exact (unambiguous_jsonText hesc hv w [] [] hw hnil hnil (by rw [h])).1

end Values

/-! ## `json.dumps` with its default alphabet -/

/-- A letter of a string under `ensure_ascii=True`. -/
def asciiEscape (c : Char) : List Char :=
  if 0x10000 ≤ c.toNat then
    unicodeEscape lit1 (0xD800 + (c.toNat - 0x10000) / 1024) ++
      unicodeEscape lit1 (0xDC00 + (c.toNat - 0x10000) % 1024)
  else escapeUnit lit1 Char.toNat (fun n => decide (0x7E < n ∧ n < 0x10000)) c

theorem readChar_pair {c : Char} (hc : 0x10000 ≤ c.toNat) (rest : List Char) :
    readChar (unicodeEscape lit1 (0xD800 + (c.toNat - 0x10000) / 1024) ++
      (unicodeEscape lit1 (0xDC00 + (c.toNat - 0x10000) % 1024) ++ rest)) =
      some (c, rest) := by
  have hv : c.toNat.isValidChar := c.valid
  have hlt : c.toNat < 0x110000 := by
    simp only [Nat.isValidChar] at hv
    omega
  obtain ⟨hi, hhi⟩ : ∃ n, n = 0xD800 + (c.toNat - 0x10000) / 1024 := ⟨_, rfl⟩
  obtain ⟨lo, hlo⟩ : ∃ n, n = 0xDC00 + (c.toNat - 0x10000) % 1024 := ⟨_, rfl⟩
  have hlow : readLowHalf (unicodeEscape lit1 lo ++ rest) = some (lo, rest) := by
    have hread := readHex4_digits (n := lo) (by omega) rest
    show readLowHalf ('\\' :: 'u' :: (lo / 4096 % 16).digitChar ::
      (lo / 256 % 16).digitChar :: (lo / 16 % 16).digitChar ::
      (lo % 16).digitChar :: rest) = _
    rw [readLowHalf, if_pos ⟨rfl, rfl⟩, hread]
    simp only []
    rw [if_pos (by omega)]
  rw [← hhi, ← hlo]
  show readUnicode ((hi / 4096 % 16).digitChar :: (hi / 256 % 16).digitChar ::
    (hi / 16 % 16).digitChar :: (hi % 16).digitChar ::
    (unicodeEscape lit1 lo ++ rest)) = _
  rw [readUnicode, readHex4_digits (by omega)]
  simp only [hlow]
  have hcode : 0x10000 + (hi - 0xD800) * 1024 + (lo - 0xDC00) = c.toNat := by
    omega
  rw [if_pos (by omega), if_pos (by omega), hcode, Char.ofNat_toNat]

theorem readable_asciiEscape : Readable asciiEscape := by
  have hunit : Readable (escapeUnit lit1 Char.toNat
      (fun n => decide (0x7E < n ∧ n < 0x10000))) :=
    readable_escapeUnit fun n hn => (of_decide_eq_true hn).2
  constructor
  · intro c rest
    unfold asciiEscape
    split
    · next hc => rw [List.append_assoc, readChar_pair hc]
    · exact hunit.read c rest
  · intro c rest
    unfold asciiEscape
    split
    · simp [unicodeEscape, lit1]
    · exact hunit.head c rest

/-- A number as JSON writes it. -/
structure Number where
  text : String
  numeral : Numeral text.toList

theorem Number.text_injective : Function.Injective Number.text := by
  rintro ⟨s, hs⟩ ⟨t, ht⟩ h
  obtain rfl : s = t := h
  rfl

def Number.ofInt (i : Int) : Number where
  text := String.ofList (intDigits i)
  numeral := by
    rw [String.toList_ofList]
    exact numeral_intDigits i

theorem intDigits_injective : Function.Injective intDigits := by
  intro i j h
  have hdigits : ∀ n : Nat, '-' ∉ Nat.toDigits 10 n := by
    intro n hmem
    exact absurd (Nat.isDigit_of_mem_toDigits (by omega) (by omega) hmem)
      (by decide)
  have hnat : ∀ {m n : Nat}, Nat.toDigits 10 m = Nat.toDigits 10 n → m = n := by
    intro m n hmn
    rw [← Nat.ofDigitChars_ten_toDigits (n := m), hmn,
      Nat.ofDigitChars_ten_toDigits]
  unfold intDigits at h
  by_cases hi : i < 0
  · by_cases hj : j < 0
    · rw [if_pos hi, if_pos hj] at h
      have := hnat (List.cons.inj h).2
      omega
    · rw [if_pos hi, if_neg hj] at h
      exact absurd (h ▸ List.mem_cons_self) (hdigits j.natAbs)
  · by_cases hj : j < 0
    · rw [if_neg hi, if_pos hj] at h
      exact absurd (h ▸ List.mem_cons_self) (hdigits i.natAbs)
    · rw [if_neg hi, if_neg hj] at h
      have := hnat h
      omega

theorem Number.ofInt_injective : Function.Injective Number.ofInt := by
  intro i j h
  have htext : intDigits i = intDigits j := by
    have := congrArg (fun n => n.text.toList) h
    simpa [Number.ofInt] using this
  exact intDigits_injective htext

/-- Order of two strings, code point by code point. -/
def codeLe (s t : String) : Prop :=
  lexLe Char.toNat s.toList t.toList = true

instance : DecidableRel codeLe := fun s t =>
  inferInstanceAs (Decidable (lexLe Char.toNat s.toList t.toList = true))

/-- `json.dumps(v, sort_keys=True, separators=(",", ":"))` -/
def dumpsSorted (v : Json String Number) : List Char :=
  jsonText asciiEscape ((v.sortKeys codeLe).map id Number.text)

/-- Equal as Python values: the order of a dictionary's keys is no part of
it. -/
def SameValue (v w : Json String Number) : Prop :=
  v.sortKeys codeLe = w.sortKeys codeLe

theorem numerals_map (v : Json String Number) :
    Numerals (v.map id Number.text) := by
  induction v using Json.ind with
  | null => trivial
  | bool b => trivial
  | num n => exact n.numeral
  | str s => trivial
  | arr vs ih =>
      rw [Json.map_arr, Numerals, Json.all_arr]
      intro w hw
      obtain ⟨v, hv, rfl⟩ := List.mem_map.mp hw
      exact ih v hv
  | obj ms ih =>
      rw [Json.map_obj, Numerals, Json.all_obj]
      intro n hn
      obtain ⟨m, hm, rfl⟩ := List.mem_map.mp hn
      exact ⟨trivial, ih m hm⟩

/-- Lists with one image are equal where their members' images tell them
apart. -/
theorem map_eq_of_forall {α β : Type} {f : α → β} {as bs : List α}
    (has : ∀ a ∈ as, ∀ b ∈ bs, f a = f b → a = b) (h : as.map f = bs.map f) :
    as = bs := by
  induction as generalizing bs with
  | nil => exact (List.map_eq_nil_iff.mp h.symm).symm
  | cons a as ih =>
      cases bs with
      | nil => cases h
      | cons b bs =>
          obtain ⟨hab, htail⟩ := List.cons.inj h
          rw [has a List.mem_cons_self b List.mem_cons_self hab,
            ih (fun x hx y hy => has x (List.mem_cons_of_mem _ hx) y
              (List.mem_cons_of_mem _ hy)) htail]

/-- A map that tells the strings and numbers of two values apart tells the
values apart. -/
theorem map_injOn {σ σ' ν ν' : Type} {g : σ → σ'} {f : ν → ν'}
    {P : σ → Prop} {Q : ν → Prop}
    (hg : ∀ s t, P s → P t → g s = g t → s = t)
    (hf : ∀ m n, Q m → Q n → f m = f n → m = n) {v w : Json σ ν}
    (hv : v.All P Q) (hw : w.All P Q) (h : v.map g f = w.map g f) :
    v = w := by
  induction v using Json.ind generalizing w with
  | null =>
      cases w with
      | null => rfl
      | _ => simp at h
  | bool b =>
      cases w with
      | bool c => simpa using h
      | _ => simp at h
  | num n =>
      cases w with
      | num m => rw [hf n m hv hw (Json.num.inj h)]
      | _ => simp at h
  | str s =>
      cases w with
      | str t => rw [hg s t hv hw (Json.str.inj h)]
      | _ => simp at h
  | arr vs ih =>
      cases w with
      | arr ws =>
          rw [Json.map_arr, Json.map_arr] at h
          rw [Json.all_arr] at hv hw
          rw [map_eq_of_forall (fun v hm w hm' => ih v hm (hv v hm) (hw w hm'))
            (Json.arr.inj h)]
      | _ => simp at h
  | obj ms ih =>
      cases w with
      | obj ns =>
          rw [Json.map_obj, Json.map_obj] at h
          rw [Json.all_obj] at hv hw
          rw [map_eq_of_forall (fun m hm n hn hmn => Prod.ext
            (hg _ _ (hv m hm).1 (hw n hn).1 (congrArg Prod.fst hmn))
            (ih m hm (hv m hm).2 (hw n hn).2 (congrArg Prod.snd hmn)))
            (Json.obj.inj h)]
      | _ => simp at h

theorem map_injective {σ σ' ν ν' : Type} {g : σ → σ'} {f : ν → ν'}
    (hg : Function.Injective g) (hf : Function.Injective f) :
    Function.Injective (Json.map g f) := by
  have hall : ∀ v : Json σ ν, v.All (fun _ => True) (fun _ => True) := by
    intro v
    induction v using Json.ind with
    | arr vs ih => exact Json.all_arr.mpr ih
    | obj ms ih => exact Json.all_obj.mpr fun m hm => ⟨trivial, ih m hm⟩
    | _ => trivial
  exact fun v w h => map_injOn (fun _ _ _ _ hst => hg hst)
    (fun _ _ _ _ hmn => hf hmn) (hall v) (hall w) h

/-- Two values have the same sorted text exactly when they are equal. -/
theorem dumpsSorted_eq_iff {v w : Json String Number} :
    dumpsSorted v = dumpsSorted w ↔ SameValue v w := by
  constructor
  · intro h
    have hmap := eq_of_jsonText_eq readable_asciiEscape (numerals_map _)
      (numerals_map _) h
    exact map_injective Function.injective_id Number.text_injective hmap
  · intro h
    rw [dumpsSorted, h, dumpsSorted]

/-- A dictionary with one value replaced by an equal one. -/
theorem SameValue.replace {v w : Json String Number} (h : SameValue v w)
    (pre post : List (String × Json String Number)) (k : String) :
    SameValue (.obj (pre ++ (k, v) :: post)) (.obj (pre ++ (k, w) :: post)) := by
  have hmember : Prod.map id (Json.sortKeys codeLe) (k, v) =
      Prod.map id (Json.sortKeys codeLe) (k, w) := congrArg (Prod.mk k) h
  rw [SameValue, Json.sortKeys_obj, Json.sortKeys_obj, List.map_append,
    List.map_append, List.map_cons, List.map_cons, hmember]

/-- Equal dictionaries have equal values under every key. -/
theorem SameValue.member {ms ns : List (String × Json String Number)}
    (h : SameValue (.obj ms) (.obj ns)) {k : String} {v : Json String Number}
    (hmem : (k, v) ∈ ms) : ∃ w, (k, w) ∈ ns ∧ SameValue v w := by
  rw [SameValue, Json.sortKeys_obj, Json.sortKeys_obj] at h
  have hsorted : (k, v.sortKeys codeLe) ∈ Json.sortMembers codeLe
      (ms.map (Prod.map id (Json.sortKeys codeLe))) :=
    (Json.mem_sortMembers codeLe).mpr (List.mem_map.mpr ⟨(k, v), hmem, rfl⟩)
  rw [Json.obj.inj h, Json.mem_sortMembers codeLe] at hsorted
  obtain ⟨⟨l, w⟩, hw, heq⟩ := List.mem_map.mp hsorted
  obtain ⟨rfl, hvw⟩ := Prod.mk.inj heq
  exact ⟨w, hw, hvw.symm⟩

end NodeLink.Lib
