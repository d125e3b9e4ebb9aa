import NodeLink.Lib.JsonText

/-!
# Reading back compact JSON text

The decoder of `JsonText` undoes `Json.render` for every escaping whose
single characters read back (`Readable`) and every number text that reads
back in front of punctuation (`Numeral`). The proof is by induction on the
value; the two list lemmas below it walk the items and members of one
container, on the induction's hypothesis for each of them.
-/

namespace NodeLink.Lib

/-! ## Characters -/

/-- An escaping whose single characters the decoder reads back, none of
which starts with a quote. -/
structure Readable (esc : Char → List Char) : Prop where
  read : ∀ c rest, readChar (esc c ++ rest) = some (c, rest)
  head : ∀ c rest, (esc c ++ rest).head? ≠ some '"'

theorem hexValue_digitChar : ∀ d < 16, hexValue d.digitChar = some d := by
  decide

theorem readHex4_digits {n : Nat} (hn : n < 0x10000) (rest : List Char) :
    readHex4 ((n / 4096 % 16).digitChar :: (n / 256 % 16).digitChar ::
      (n / 16 % 16).digitChar :: (n % 16).digitChar :: rest) =
      some (n, rest) := by
  have hd : ∀ m, hexValue (m % 16).digitChar = some (m % 16) := by
    intro m
    exact hexValue_digitChar _ (Nat.mod_lt _ (by omega))
  simp only [readHex4, hd]
  congr 2
  omega

theorem readUnicode_digits {c : Char} (hc : c.toNat < 0x10000)
    (rest : List Char) :
    readUnicode ((c.toNat / 4096 % 16).digitChar ::
      (c.toNat / 256 % 16).digitChar :: (c.toNat / 16 % 16).digitChar ::
      (c.toNat % 16).digitChar :: rest) = some (c, rest) := by
  have hv : c.toNat.isValidChar := c.valid
  have hns : ¬ (0xD800 ≤ c.toNat ∧ c.toNat < 0xE000) := by
    simp only [Nat.isValidChar] at hv
    omega
  rw [readUnicode, readHex4_digits hc]
  simp only []
  rw [if_neg hns, Char.ofNat_toNat]

theorem eq_of_toNat {c : Char} {n : Nat} (h : c.toNat = n) : c = Char.ofNat n := by
  rw [← h, Char.ofNat_toNat]

theorem readChar_short {c e : Char} (h : shortEscape c.toNat = some e)
    (rest : List Char) : readChar ('\\' :: e :: rest) = some (c, rest) := by
  unfold shortEscape at h
  split_ifs at h <;> rename_i hn <;> injection h with h <;> subst h <;>
    rw [eq_of_toNat hn] <;> rfl

/-- The escapings of this file read back, as long as the extra characters
they escape fit four hexadecimal digits. -/
theorem readable_escapeUnit {also : Nat → Bool}
    (halso : ∀ n, also n = true → n < 0x10000) :
    Readable (escapeUnit lit1 Char.toNat also) := by
  refine ⟨fun c rest => ?_, fun c rest => ?_⟩
  · unfold escapeUnit
    split
    · next e he => exact readChar_short he rest
    · next hnone =>
        split
        · next hesc =>
            have hc : c.toNat < 0x10000 := by
              rcases Bool.or_eq_true_iff.mp hesc with h | h
              · have := of_decide_eq_true h; omega
              · exact halso _ h
            exact readUnicode_digits hc rest
        · next hesc =>
            have hbs : c ≠ '\\' := by
              rintro rfl
              exact absurd hnone (by decide)
            have hge : ¬ c.toNat < 0x20 := by
              intro h
              exact hesc (by simp [h])
            rw [List.singleton_append, readChar.eq_def]
            simp only [if_neg hbs, if_neg hge]
  · unfold escapeUnit
    split
    · simp [lit1]
    · next hnone =>
        split
        · simp [unicodeEscape, lit1]
        · intro h
          obtain rfl : c = '"' := by simpa using h
          exact absurd hnone (by decide)

theorem Readable.ne_nil {esc : Char → List Char} (h : Readable esc) (c : Char) :
    esc c ≠ [] := by
  intro h0
  have := h.read c []
  rw [h0] at this
  cases this

theorem readChars_flatMap {esc : Char → List Char} (h : Readable esc)
    {n : Nat} {s : List Char} (hn : s.length < n) (rest : List Char) :
    readChars n (s.flatMap esc ++ '"' :: rest) = some (s, rest) := by
  induction s generalizing n with
  | nil =>
      obtain ⟨m, rfl⟩ : ∃ m, n = m + 1 := ⟨n - 1, by simp at hn; omega⟩
      rw [readChars]
      exact if_pos rfl
  | cons c s ih =>
      obtain ⟨m, rfl⟩ : ∃ m, n = m + 1 := ⟨n - 1, by simp at hn; omega⟩
      rw [List.flatMap_cons, List.append_assoc, readChars,
        if_neg (h.head c _), h.read]
      simp only []
      rw [ih (by simpa using hn)]
      rfl

theorem length_le_flatMap {esc : Char → List Char} (h : Readable esc)
    (s : List Char) : s.length ≤ (s.flatMap esc).length := by
  induction s with
  | nil => simp
  | cons c s ih =>
      have := List.length_pos_of_ne_nil (h.ne_nil c)
      simp only [List.flatMap_cons, List.length_append, List.length_cons]
      omega

theorem readString_flatMap {esc : Char → List Char} (h : Readable esc)
    (s : String) (rest : List Char) :
    readString (s.toList.flatMap esc ++ '"' :: rest) = some (s, rest) := by
  have hlen := length_le_flatMap h s.toList
  have hfuel : s.toList.length
      < (s.toList.flatMap esc ++ '"' :: rest).length + 1 := by
    rw [List.length_append]
    omega
  rw [readString, readChars_flatMap h hfuel]
  simp

/-! ## Numbers -/

/-- What may not follow a number. -/
def EndsNumber (rest : List Char) : Prop :=
  ∀ c, rest.head? = some c → c.isDigit = false ∧ c ≠ '.' ∧ c ≠ 'e' ∧ c ≠ 'E'

/-- A number text: it starts as one, and reads back where it ends. -/
structure Numeral (l : List Char) : Prop where
  head : ∃ c t, l = c :: t ∧ (c = '-' ∨ c.isDigit = true)
  read : ∀ rest, EndsNumber rest → readNumber (l ++ rest) = some (l, rest)

theorem readDigits_append {ds rest : List Char} (hne : ds ≠ [])
    (hds : ∀ c ∈ ds, c.isDigit = true) (hrest : EndsNumber rest) :
    readDigits (ds ++ rest) = some (ds, rest) := by
  have hstop : rest.takeWhile Char.isDigit = [] := by
    cases rest with
    | nil => rfl
    | cons c t => simp [(hrest c rfl).1]
  have hdrop : rest.dropWhile Char.isDigit = rest := by
    cases rest with
    | nil => rfl
    | cons c t => simp [(hrest c rfl).1]
  rw [readDigits, List.takeWhile_append_of_pos hds,
    List.dropWhile_append_of_pos hds, hstop, hdrop, List.append_nil, if_neg hne]

/-- A positive number's digits start with no zero. -/
theorem head_toDigits {n : Nat} (hn : 0 < n) :
    ∃ c t, Nat.toDigits 10 n = c :: t ∧ c ≠ '0' := by
  induction n using Nat.strongRecOn with
  | ind n ih =>
      rw [Nat.toDigits_eq_if (by omega)]
      split
      · next hlt =>
          refine ⟨n.digitChar, [], rfl, ?_⟩
          have hall : ∀ d < 10, 0 < d → d.digitChar ≠ '0' := by decide
          exact hall n hlt hn
      · next hge =>
          obtain ⟨c, t, ht, hc⟩ := ih (n / 10) (by omega) (by omega)
          exact ⟨c, t ++ [(n % 10).digitChar], by rw [ht]; rfl, hc⟩

theorem readInteger_toDigits (n : Nat) {rest : List Char}
    (hrest : EndsNumber rest) :
    readInteger (Nat.toDigits 10 n ++ rest) = some (Nat.toDigits 10 n, rest) := by
  rcases Nat.eq_zero_or_pos n with rfl | hn
  · rfl
  · obtain ⟨c, t, ht, hc⟩ := head_toDigits hn
    have hdig : ∀ x ∈ Nat.toDigits 10 n, x.isDigit = true := by
      intro x hx
      exact Nat.isDigit_of_mem_toDigits (by omega) (by omega) hx
    have hread := readDigits_append (Nat.toDigits_ne_nil) hdig hrest
    rw [ht] at hread ⊢
    rw [List.cons_append, readInteger, if_neg hc]
    exact hread

theorem readFraction_end {rest : List Char} (h : EndsNumber rest) :
    readFraction rest = some ([], rest) := by
  cases rest with
  | nil => rfl
  | cons c t => rw [readFraction, if_neg (h c rfl).2.1]

theorem readExponent_end {rest : List Char} (h : EndsNumber rest) :
    readExponent rest = some ([], rest) := by
  cases rest with
  | nil => rfl
  | cons c t =>
      have hc := h c rfl
      rw [readExponent.eq_def]
      simp only [if_neg (not_or.mpr hc.2.2)]

theorem numeral_intDigits (i : Int) : Numeral (intDigits i) := by
  have hdig : ∀ x ∈ Nat.toDigits 10 i.natAbs, x.isDigit = true := by
    intro x hx
    exact Nat.isDigit_of_mem_toDigits (by omega) (by omega) hx
  obtain ⟨c, t, ht⟩ := List.exists_cons_of_ne_nil
    (Nat.toDigits_ne_nil (n := i.natAbs) (b := 10))
  have hc : c.isDigit = true := hdig c (by simp [ht])
  have hminus : c ≠ '-' := by
    rintro rfl
    exact absurd hc (by decide)
  refine ⟨?_, fun rest hrest => ?_⟩
  · unfold intDigits
    split
    · exact ⟨'-', _, rfl, Or.inl rfl⟩
    · exact ⟨c, t, ht, Or.inr hc⟩
  · have hint := readInteger_toDigits i.natAbs hrest
    unfold intDigits
    split
    · rw [readNumber, List.cons_append, List.head?_cons, if_pos rfl]
      simp only [List.length_cons, List.length_nil, List.drop_succ_cons,
        List.drop_zero, hint, readFraction_end hrest, readExponent_end hrest]
      simp
    · have hhead : (Nat.toDigits 10 i.natAbs ++ rest).head? ≠ some '-' := by
        rw [ht]
        simpa using hminus
      rw [readNumber, if_neg hhead]
      simp only [List.length_nil, List.drop_zero, hint,
        readFraction_end hrest, readExponent_end hrest]
      simp

/-! ## Values -/

namespace Json

variable {σ ν : Type}

theorem le_foldr_max {n : Nat} {ns : List Nat} (h : n ∈ ns) :
    n ≤ ns.foldr max 0 := by
  induction ns with
  | nil => cases h
  | cons m ns ih =>
      rw [List.foldr_cons]
      rcases List.mem_cons.mp h with rfl | h
      · omega
      · have := ih h
        omega

@[simp] theorem nesting_arr (vs : List (Json σ ν)) :
    (arr vs).nesting = (vs.map nesting).foldr max 0 + 1 := fold_arr ..

@[simp] theorem nesting_obj (ms : List (σ × Json σ ν)) :
    (obj ms).nesting = (ms.map fun m => m.2.nesting).foldr max 0 + 1 := by
  rw [nesting, fold_obj, List.map_map]
  rfl

theorem nesting_map {σ' ν' : Type} (g : σ → σ') (f : ν → ν')
    (v : Json σ ν) : (v.map g f).nesting = v.nesting := by
  induction v using ind with
  | null => rfl
  | bool b => rfl
  | str s => rfl
  | num n => rfl
  | arr vs ih =>
      rw [map_arr, nesting_arr, nesting_arr, List.map_map]
      congr 2
      exact List.map_congr_left fun v hv => ih v hv
  | obj ms ih =>
      rw [map_obj, nesting_obj, nesting_obj, List.map_map]
      congr 2
      exact List.map_congr_left fun m hm => ih m hm

theorem nesting_lt_arr {vs : List (Json σ ν)} {v : Json σ ν} (h : v ∈ vs) :
    v.nesting < (arr vs).nesting := by
  rw [nesting_arr]
  exact Nat.lt_succ_of_le (le_foldr_max (List.mem_map_of_mem h))

theorem nesting_lt_obj {ms : List (σ × Json σ ν)} {m : σ × Json σ ν}
    (h : m ∈ ms) : m.2.nesting < (obj ms).nesting := by
  rw [nesting_obj]
  exact Nat.lt_succ_of_le (le_foldr_max (List.mem_map_of_mem (f := fun m : σ ×
    Json σ ν => m.2.nesting) h))

theorem foldr_max_le {n : Nat} {ns : List Nat} (h : ∀ m ∈ ns, m ≤ n) :
    ns.foldr max 0 ≤ n := by
  induction ns with
  | nil => exact Nat.zero_le n
  | cons m ns ih =>
      rw [List.foldr_cons]
      exact Nat.max_le.mpr ⟨h m (by simp), ih fun k hk => h k (by simp [hk])⟩

theorem nesting_arr_le {vs : List (Json σ ν)} {n : Nat}
    (h : ∀ v ∈ vs, v.nesting ≤ n) : (arr vs).nesting ≤ n + 1 := by
  rw [nesting_arr]
  refine Nat.succ_le_succ (foldr_max_le ?_)
  intro m hm
  obtain ⟨v, hv, rfl⟩ := List.mem_map.mp hm
  exact h v hv

theorem nesting_obj_le {ms : List (σ × Json σ ν)} {n : Nat}
    (h : ∀ m ∈ ms, m.2.nesting ≤ n) : (obj ms).nesting ≤ n + 1 := by
  rw [nesting_obj]
  refine Nat.succ_le_succ (foldr_max_le ?_)
  intro k hk
  obtain ⟨m, hm, rfl⟩ := List.mem_map.mp hk
  exact h m hm

end Json

section RoundTrip

variable {esc : Char → List Char}

/-- The compact text of a value under an escaping, number literals as they
are. -/
def jsonText (esc : Char → List Char) (v : Json String String) : List Char :=
  v.render lit1 (fun s => s.toList.flatMap esc) String.toList

/-- Every number of the value is a number text. -/
def Numerals (v : Json String String) : Prop :=
  v.All (fun _ => True) (fun n => Numeral n.toList)

/-- A member's text: quoted key, colon, value. -/
def memberText (esc : Char → List Char) (m : String × Json String String) :
    List Char :=
  Json.quoted lit1 (fun s : String => s.toList.flatMap esc) m.1 ++ lit1 ':'
    ++ jsonText esc m.2

theorem jsonText_arr (vs : List (Json String String)) :
    jsonText esc (.arr vs) =
      '[' :: ((lit1 ',').intercalate (vs.map (jsonText esc)) ++ [']']) :=
  Json.render_arr ..

theorem jsonText_obj (ms : List (String × Json String String)) :
    jsonText esc (.obj ms) =
      '{' :: ((lit1 ',').intercalate (ms.map (memberText esc)) ++ ['}']) :=
  Json.render_obj ..

/-- The text starts with a character that is no space and closes nothing. -/
theorem jsonText_head (esc : Char → List Char) {v : Json String String}
    (hv : Numerals v) :
    ∃ c t, jsonText esc v = c :: t ∧ isSpace c = false ∧ c ≠ ']' := by
  cases v with
  | null => exact ⟨'n', _, rfl, rfl, by decide⟩
  | bool b => cases b <;> exact ⟨_, _, rfl, rfl, by decide⟩
  | str s => exact ⟨'"', _, rfl, rfl, by decide⟩
  | arr vs => exact ⟨'[', _, jsonText_arr vs, rfl, by decide⟩
  | obj ms => exact ⟨'{', _, jsonText_obj ms, rfl, by decide⟩
  | num n =>
      obtain ⟨c, t, ht, hc⟩ := (Json.all_num.mp hv).head
      have hnot : ∀ x : Char, x ≠ '-' → x.isDigit = false → c ≠ x := by
        rintro x hx hxd rfl
        rcases hc with rfl | hc
        · exact hx rfl
        · rw [hxd] at hc
          cases hc
      refine ⟨c, t, ht, ?_, hnot ']' (by decide) rfl⟩
      simp [isSpace, hnot ' ' (by decide) rfl, hnot '\t' (by decide) rfl,
        hnot '\r' (by decide) rfl, hnot '\n' (by decide) rfl]

theorem skipSpace_cons {c : Char} (h : isSpace c = false) (t : List Char) :
    skipSpace (c :: t) = c :: t := by
  rw [skipSpace, List.dropWhile_cons_of_neg (by simp [h])]

theorem endsNumber_cons {c : Char} (t : List Char)
    (h : c = ',' ∨ c = ']' ∨ c = '}') : EndsNumber (c :: t) := by
  intro d hd
  obtain rfl : c = d := by simpa using hd
  rcases h with rfl | rfl | rfl <;> decide

theorem intercalate_cons_cons {τ : Type} (sep x y : List τ)
    (xs : List (List τ)) :
    sep.intercalate (x :: y :: xs) = x ++ sep ++ sep.intercalate (y :: xs) := by
  simp [List.intercalate]

/-- What reading back one part of a container at `depth` means. -/
def ReadsBack (esc : Char → List Char) (depth : Nat) (v : Json String String) :
    Prop :=
  ∀ fuel rest, 2 * (jsonText esc v).length ≤ fuel → EndsNumber rest →
    readValue fuel depth (jsonText esc v ++ rest) = some (v, rest)

theorem readItems_intercalate {depth : Nat} {vs : List (Json String String)}
    (hne : vs ≠ []) (hv : ∀ v ∈ vs, ReadsBack esc depth v)
    (hnum : ∀ v ∈ vs, Numerals v) {k : Nat} (rest : List Char)
    (hfuel : 2 * ((lit1 ',').intercalate (vs.map (jsonText esc))).length + 1
      ≤ k) :
    readItems k depth ((lit1 ',').intercalate (vs.map (jsonText esc))
      ++ ']' :: rest) = some (vs, rest) := by
  induction vs generalizing k with
  | nil => exact absurd rfl hne
  | cons v vs ih =>
      obtain ⟨n, rfl⟩ : ∃ n, k = n + 1 := ⟨k - 1, by omega⟩
      obtain ⟨c, t, hct, -, -⟩ := jsonText_head esc (hnum v (by simp))
      have hpos : 1 ≤ (jsonText esc v).length := by simp [hct]
      cases vs with
      | nil =>
          have hone : (lit1 ',').intercalate ([v].map (jsonText esc)) =
              jsonText esc v := by simp [List.intercalate]
          rw [hone] at hfuel ⊢
          have hread := hv v (by simp) n (']' :: rest) (by omega)
            (endsNumber_cons _ (by simp))
          rw [readItems, hread]
          rfl
      | cons w ws =>
          rw [List.map_cons, List.map_cons, intercalate_cons_cons] at hfuel ⊢
          simp only [List.length_append, lit1, List.length_singleton] at hfuel
          have hread := hv v (by simp) n (',' :: ((lit1 ',').intercalate
            ((w :: ws).map (jsonText esc)) ++ ']' :: rest)) (by omega)
            (endsNumber_cons _ (by simp))
          have htail := ih (by simp) (fun x hx => hv x (by simp [hx]))
            (fun x hx => hnum x (by simp [hx])) (k := n) (by
              simp only [lit1, List.map_cons]
              omega)
          rw [List.append_assoc, List.append_assoc, readItems]
          rw [show lit1 ',' ++ ((lit1 ',').intercalate (jsonText esc w ::
            ws.map (jsonText esc)) ++ ']' :: rest) = ',' :: ((lit1 ',').intercalate
            ((w :: ws).map (jsonText esc)) ++ ']' :: rest) from rfl, hread]
          simp only [skipSpace_cons (c := ',') rfl, List.head?_cons,
            List.tail_cons, if_true, htail, Option.map_some]

/-- One member off the front, whatever stands behind it. -/
theorem memberText_append (m : String × Json String String)
    (rest : List Char) :
    memberText esc m ++ rest = '"' :: (m.1.toList.flatMap esc ++ '"' ::
      ':' :: (jsonText esc m.2 ++ rest)) := by
  simp [memberText, Json.quoted, lit1]

theorem readMembers_intercalate (hesc : Readable esc) {depth : Nat}
    {ms : List (String × Json String String)} (hne : ms ≠ [])
    (hv : ∀ m ∈ ms, ReadsBack esc depth m.2) {k : Nat} (rest : List Char)
    (hfuel : 2 * ((lit1 ',').intercalate (ms.map (memberText esc))).length + 1
      ≤ k) :
    readMembers k depth ((lit1 ',').intercalate (ms.map (memberText esc))
      ++ '}' :: rest) = some (ms, rest) := by
  induction ms generalizing k with
  | nil => exact absurd rfl hne
  | cons m ms ih =>
      obtain ⟨n, rfl⟩ : ∃ n, k = n + 1 := ⟨k - 1, by omega⟩
      have hlen : (jsonText esc m.2).length + 3 ≤ (memberText esc m).length := by
        simp [memberText, Json.quoted, lit1]
      have hkey : ∀ tail, readString (m.1.toList.flatMap esc ++ '"' :: tail)
          = some (m.1, tail) := fun tail => readString_flatMap hesc m.1 tail
      cases ms with
      | nil =>
          have hone : (lit1 ',').intercalate ([m].map (memberText esc)) =
              memberText esc m := by simp [List.intercalate]
          rw [hone] at hfuel ⊢
          have hread := hv m (by simp) n ('}' :: rest) (by omega)
            (endsNumber_cons _ (by simp))
          rw [memberText_append, readMembers]
          simp only [skipSpace_cons (c := '"') rfl, List.head?_cons,
            List.tail_cons, if_true, hkey, skipSpace_cons (c := ':') rfl, hread,
            skipSpace_cons (c := '}') rfl]
          rfl
      | cons w ws =>
          rw [List.map_cons, List.map_cons, intercalate_cons_cons] at hfuel ⊢
          simp only [List.length_append, lit1, List.length_singleton] at hfuel
          have hread := hv m (by simp) n (',' :: ((lit1 ',').intercalate
            ((w :: ws).map (memberText esc)) ++ '}' :: rest)) (by omega)
            (endsNumber_cons _ (by simp))
          have htail := ih (by simp) (fun x hx => hv x (by simp [hx]))
            (k := n) (by
              simp only [lit1, List.map_cons]
              omega)
          rw [List.append_assoc, List.append_assoc, memberText_append,
            readMembers]
          rw [show lit1 ',' ++ ((lit1 ',').intercalate (memberText esc w ::
            ws.map (memberText esc)) ++ '}' :: rest) = ',' :: ((lit1 ',').intercalate
            ((w :: ws).map (memberText esc)) ++ '}' :: rest) from rfl]
          simp only [skipSpace_cons (c := '"') rfl, List.head?_cons,
            List.tail_cons, if_true, hkey, skipSpace_cons (c := ':') rfl, hread,
            skipSpace_cons (c := ',') rfl, htail, Option.map_some]

theorem length_jsonText_pos (esc : Char → List Char) {v : Json String String}
    (hv : Numerals v) :
    0 < (jsonText esc v).length := by
  obtain ⟨c, t, hct, -, -⟩ := jsonText_head esc hv
  simp [hct]

/-- Reading undoes writing, inside `depth` open containers. -/
theorem readsBack (hesc : Readable esc) {v : Json String String}
    (hnum : Numerals v) {depth : Nat} (hdepth : depth + v.nesting ≤ maxNesting) :
    ReadsBack esc depth v := by
  induction v using Json.ind generalizing depth with
  | null =>
      intro fuel rest hfuel _
      have hpos := length_jsonText_pos esc hnum
      obtain ⟨n, rfl⟩ : ∃ n, fuel = n + 1 := ⟨fuel - 1, by omega⟩
      rfl
  | bool b =>
      intro fuel rest hfuel _
      have hpos := length_jsonText_pos esc hnum
      obtain ⟨n, rfl⟩ : ∃ n, fuel = n + 1 := ⟨fuel - 1, by omega⟩
      cases b <;> rfl
  | str s =>
      intro fuel rest hfuel _
      have hpos := length_jsonText_pos esc hnum
      obtain ⟨n, rfl⟩ : ∃ n, fuel = n + 1 := ⟨fuel - 1, by omega⟩
      have htext : jsonText esc (.str s) ++ rest =
          '"' :: (s.toList.flatMap esc ++ '"' :: rest) := by
        simp [jsonText, Json.quoted, lit1]
      rw [htext, readValue, skipSpace_cons rfl]
      simp only [if_true, readString_flatMap hesc, Option.map_some]
  | num m =>
      intro fuel rest hfuel hrest
      have hpos := length_jsonText_pos esc hnum
      obtain ⟨n, rfl⟩ : ∃ n, fuel = n + 1 := ⟨fuel - 1, by omega⟩
      have hm : Numeral m.toList := hnum
      obtain ⟨c, t, hct, hspace, -⟩ := jsonText_head esc hnum
      obtain ⟨c', t', hct', hc⟩ := hm.head
      obtain ⟨rfl, rfl⟩ := List.cons.inj (hct'.symm.trans hct)
      have hread := hm.read rest hrest
      have hne : ∀ x : Char, x ≠ '-' → x.isDigit = false → c' ≠ x := by
        rintro x hx hxd rfl
        rcases hc with rfl | hc
        · exact hx rfl
        · rw [hxd] at hc
          cases hc
      rw [hct', List.cons_append] at hread
      rw [hct, List.cons_append, readValue, skipSpace_cons hspace]
      simp only [if_neg (hne '"' (by decide) rfl),
        if_neg (hne '[' (by decide) rfl), if_neg (hne '{' (by decide) rfl),
        if_neg (hne 'n' (by decide) rfl), if_neg (hne 't' (by decide) rfl),
        if_neg (hne 'f' (by decide) rfl), hread, Option.map_some]
      rw [← hct', String.ofList_toList]
  | arr vs ih =>
      intro fuel rest hfuel _
      have hpos := length_jsonText_pos esc hnum
      obtain ⟨n, rfl⟩ : ∃ n, fuel = n + 1 := ⟨fuel - 1, by omega⟩
      have hopen : ¬ maxNesting ≤ depth := by
        have : 0 < (Json.arr vs).nesting := by
          rw [Json.nesting_arr]; omega
        omega
      rw [jsonText_arr] at hfuel ⊢
      rw [List.cons_append, List.append_assoc, List.singleton_append,
        readValue, skipSpace_cons rfl]
      simp only [if_neg (by decide : ¬ '[' = '"'), if_true, if_neg hopen]
      cases vs with
      | nil => rfl
      | cons v vs =>
          have hall : ∀ w ∈ v :: vs, ReadsBack esc (depth + 1) w := by
            intro w hw
            have := Json.nesting_lt_arr hw
            exact ih w hw (Json.all_arr.mp hnum w hw) (by omega)
          have hitems := readItems_intercalate (by simp) hall
            (Json.all_arr.mp hnum) rest (k := n) (by
              simp only [List.length_append, List.length_cons] at hfuel
              omega)
          obtain ⟨c, t, hct, hspace, hcb⟩ :=
            jsonText_head esc (Json.all_arr.mp hnum v (by simp))
          have hhead : (skipSpace ((lit1 ',').intercalate ((v :: vs).map
              (jsonText esc)) ++ ']' :: rest)).head? ≠ some ']' := by
            cases vs with
            | nil => simpa [List.intercalate, hct, skipSpace_cons hspace]
            | cons w ws =>
                rw [List.map_cons, List.map_cons, intercalate_cons_cons, hct]
                simpa [skipSpace_cons hspace]
          rw [if_neg hhead, hitems]
          rfl
  | obj ms ih =>
      intro fuel rest hfuel _
      have hpos := length_jsonText_pos esc hnum
      obtain ⟨n, rfl⟩ : ∃ n, fuel = n + 1 := ⟨fuel - 1, by omega⟩
      have hopen : ¬ maxNesting ≤ depth := by
        have : 0 < (Json.obj ms).nesting := by
          rw [Json.nesting_obj]; omega
        omega
      rw [jsonText_obj] at hfuel ⊢
      rw [List.cons_append, List.append_assoc, List.singleton_append,
        readValue, skipSpace_cons rfl]
      simp only [if_neg (by decide : ¬ '{' = '"'),
        if_neg (by decide : ¬ '{' = '['), if_true, if_neg hopen]
      cases ms with
      | nil => rfl
      | cons m ms =>
          have hall : ∀ w ∈ m :: ms, ReadsBack esc (depth + 1) w.2 := by
            intro w hw
            have := Json.nesting_lt_obj hw
            exact ih w hw (Json.all_obj.mp hnum w hw).2 (by omega)
          have hmembers := readMembers_intercalate hesc (by simp) hall rest
            (k := n) (by
              simp only [List.length_append, List.length_cons] at hfuel
              omega)
          have hhead : (skipSpace ((lit1 ',').intercalate ((m :: ms).map
              (memberText esc)) ++ '}' :: rest)).head? ≠ some '}' := by
            cases ms with
            | nil =>
                rw [List.map_cons, List.map_nil,
                  show (lit1 ',').intercalate [memberText esc m]
                    = memberText esc m by simp [List.intercalate],
                  memberText_append, skipSpace_cons rfl]
                simp
            | cons w ws =>
                rw [List.map_cons, List.map_cons, intercalate_cons_cons,
                  List.append_assoc, List.append_assoc, memberText_append,
                  skipSpace_cons rfl]
                simp
          rw [if_neg hhead, hmembers]
          rfl

/-- Reading undoes writing. -/
theorem readJson_jsonText (hesc : Readable esc) {v : Json String String}
    (hnum : Numerals v) (hdepth : v.nesting ≤ maxNesting) :
    readJson (jsonText esc v) = some (v, []) := by
  have hback : ReadsBack esc 0 v := readsBack hesc hnum (by simpa using hdepth)
  have h := hback (2 * (jsonText esc v).length + 2) [] (by omega)
    (by intro c hc; cases hc)
  rwa [List.append_nil] at h

end RoundTrip

end NodeLink.Lib
