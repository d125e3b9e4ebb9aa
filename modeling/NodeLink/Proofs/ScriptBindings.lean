import NodeLink.Agent.ScriptParameters
import NodeLink.Lib.JsonRoundTrip
import NodeLink.Lib.ShellText
import NodeLink.Server.ScriptParameters

/-!
# Script parameters are data

The agent and the server quote a value for a shell, or for PowerShell, and put
the assignments in front of the script. A shell reads back what was given. For
PowerShell only the apostrophe is doubled, and it takes four typographic marks
for the same quote: a value with one of them is read as something else, and the
script with it.
-/

namespace NodeLink.Proofs.ScriptBindings

open Lib Lib.ShellText

/-! ## What a script is to be read as -/

/-- The text of a value in an environment. -/
def environmentText : Value → Points
  | .text s => s
  | .bool true => points "true"
  | .bool false => points "false"
  | .number s => s

/-- Read under the rules of the shell, the text is one assignment for each of the
bindings, with its export, and the script after them. -/
def ReadByShell (text : Points) (bindings : List (Points × Value)) (script : Points) :
    Prop :=
  readMany posixBinding bindings.length text =
    some (bindings.map fun b => (b.1, environmentText b.2), script)

def ReadByPowerShell (text : Points) (bindings : List (Points × Value))
    (script : Points) : Prop :=
  readMany powershellBinding bindings.length text = some (bindings, script)

/-- None of the marks that PowerShell takes for an apostrophe. -/
def NoTypographic (s : Points) : Prop := ∀ c ∈ s, isTypographic c = false

instance (s : Points) : Decidable (NoTypographic s) :=
  inferInstanceAs (Decidable (∀ c ∈ s, _))

/-! ## Numbers -/

theorem isDecimal_digits {s : Points} (hne : s ≠ [])
    (h : ∀ c ∈ s, isDigit c = true) : isDecimal s = true := by
  obtain ⟨c, t, rfl⟩ := List.exists_cons_of_ne_nil hne
  have hsign : ¬ (c = 43 ∨ c = 45) := by
    intro hc
    have hdigit := h c List.mem_cons_self
    rcases hc with heq | heq
    · rw [heq] at hdigit
      exact absurd hdigit (by decide)
    · rw [heq] at hdigit
      exact absurd hdigit (by decide)
  rw [isDecimal, dropSign, if_neg hsign, List.takeWhile_eq_self_iff.mpr h,
    List.dropWhile_eq_nil_iff.mpr h]
  rfl

theorem isDecimal_neg {s : Points} (hne : s ≠ []) (h : ∀ c ∈ s, isDigit c = true) :
    isDecimal (45 :: s) = true := by
  rw [isDecimal, dropSign, if_pos (Or.inr rfl), List.takeWhile_eq_self_iff.mpr h,
    List.dropWhile_eq_nil_iff.mpr h]
  obtain ⟨c, t, rfl⟩ := List.exists_cons_of_ne_nil hne
  rfl

theorem isDigit_toNat {c : Char} (h : c.isDigit = true) : isDigit c.toNat = true := by
  have hrange := Char.isDigit_iff_toNat.mp h
  exact decide_eq_true hrange

theorem isDecimal_intDigits (i : Int) :
    isDecimal ((intDigits i).map Char.toNat) = true := by
  have hdigits : ∀ c ∈ (Nat.toDigits 10 i.natAbs).map Char.toNat,
      isDigit c = true := by
    intro c hc
    obtain ⟨d, hd, rfl⟩ := List.mem_map.mp hc
    exact isDigit_toNat (Nat.isDigit_of_mem_toDigits (by omega) (by omega) hd)
  have hne : (Nat.toDigits 10 i.natAbs).map Char.toNat ≠ [] := by
    rw [ne_eq, List.map_eq_nil_iff]
    exact Nat.toDigits_ne_nil
  unfold intDigits
  split
  · exact isDecimal_neg hne hdigits
  · exact isDecimal_digits hne hdigits

/-! ## The agent's script -/

section Agent

open Agent.ScriptParameters

variable {go : GoText} {kind : ScriptKind} {p : ParameterValue} {value : String}

/-- A line of the script, with its end. -/
def line (s : String) : Points := points s ++ [10]

theorem points_append (a b : String) : points (a ++ b) = points a ++ points b := by
  rw [points, String.toList_append, List.map_append]
  rfl

theorem points_ofList (l : List Char) : points (String.ofList l) = l.map Char.toNat := by
  rw [points, String.toList_ofList]

theorem points_replace (s new : String) : points (replaceApostrophes s new) =
    (points s).flatMap fun c => if c = 39 then points new else [c] := by
  have happly : ∀ c : Char,
      (if c = '\x27' then new.toList else [c]).map Char.toNat =
        if c.toNat = 39 then points new else [c.toNat] := by
    intro c
    by_cases hc : c = '\x27'
    · rw [if_pos hc, hc]
      rfl
    · have hne : c.toNat ≠ 39 := fun h => hc (Char.toNat_inj.mp h)
      rw [if_neg hc, if_neg hne]
      rfl
  rw [replaceApostrophes, points_ofList, List.map_flatMap, funext happly]
  unfold points
  rw [List.flatMap_map]

theorem points_quotePowerShell (s : String) :
    points (quotePowerShell s) = powershellQuoted (points s) := by
  rw [quotePowerShell, points_append, points_append, points_replace]
  rfl

theorem points_quoteShell (s : String) :
    points (quoteShell s) = posixQuoted (points s) := by
  rw [quoteShell, points_append, points_append, points_replace]
  rfl

/-- The value a parameter gives. -/
def given (go : GoText) (p : ParameterValue) : Value :=
  match p.value with
  | .string s => .text (points s)
  | .bool b => .bool b
  | .jsonNumber text => .number (points text)
  | .float64 x => .number (points (go.formatFloat x))
  | .int i => .number (points (itoa i))
  | .other => .text []

def binding (go : GoText) (p : ParameterValue) : Points × Value :=
  (points ("NL_PARAM_" ++ p.key), given go p)

/-- The value of an accepted parameter is as its kind has it. -/
theorem normalized_spec (h : normalizedParameter go p = .ok value) :
    parameterKeyPattern p.key = true ∧
      ((∃ b, p.kind = .boolean ∧ given go p = .bool b ∧ value = formatBool b) ∨
        (p.kind = .number ∧ given go p = .number (points value)) ∨
        (p.kind ≠ .boolean ∧ p.kind ≠ .number ∧ given go p = .text (points value))) := by
  unfold normalizedParameter at h
  split at h
  · cases h
  · next hkey =>
      rw [Bool.not_eq_true', Bool.not_eq_false] at hkey
      refine ⟨hkey, ?_⟩
      have htext : ∀ {text}, p.value = .string text →
          given go p = .text (points text) := by
        intro text hvalue
        rw [given, hvalue]
      cases hkind : p.kind with
      | boolean =>
          rw [hkind] at h
          cases hvalue : p.value with
          | bool b =>
              rw [hvalue] at h
              cases h
              exact Or.inl ⟨b, rfl, by rw [given, hvalue], rfl⟩
          | _ =>
              rw [hvalue] at h
              cases h
      | number =>
          rw [hkind] at h
          refine Or.inr (Or.inl ⟨rfl, ?_⟩)
          cases hvalue : p.value with
          | jsonNumber text =>
              rw [hvalue] at h
              simp only at h
              split at h
              · split at h
                · cases h
                  rw [given, hvalue]
                · cases h
              · cases h
          | float64 x =>
              rw [hvalue] at h
              simp only at h
              split at h
              · cases h
                rw [given, hvalue]
              · cases h
          | int i =>
              rw [hvalue] at h
              cases h
              rw [given, hvalue]
          | _ =>
              rw [hvalue] at h
              cases h
      | other kind =>
          rw [hkind] at h
          cases h
      | _ =>
          rw [hkind] at h
          refine Or.inr (Or.inr ⟨fun hk => (by cases hk), fun hk => (by cases hk), ?_⟩)
          cases hvalue : p.value with
          | string text =>
              rw [hvalue] at h
              cases h
              exact htext hvalue
          | _ =>
              rw [hvalue] at h
              cases h

/-- A name is made of letters, digits and `_`. -/
theorem name_words (h : parameterKeyPattern p.key = true) :
    ∀ c ∈ points ("NL_PARAM_" ++ p.key), isWord c = true := by
  have hchar : ∀ c : Char, (c.isAlphanum || c == '_') = true →
      isWord c.toNat = true := by
    intro c hc
    rcases Bool.or_eq_true_iff.mp hc with halnum | hunderscore
    · rcases Bool.or_eq_true_iff.mp halnum with halpha | hdigit
      · rcases Bool.or_eq_true_iff.mp halpha with hupper | hlower
        · have hrange : 65 ≤ c.toNat ∧ c.toNat ≤ 90 := by
            simp only [Char.isUpper, decide_eq_true_eq] at hupper
            exact hupper
          simp only [isWord, Bool.or_eq_true, decide_eq_true_eq]
          exact Or.inl (Or.inl (Or.inr hrange))
        · have hrange : 97 ≤ c.toNat ∧ c.toNat ≤ 122 := by
            simp only [Char.isLower, Bool.and_eq_true, decide_eq_true_eq] at hlower
            exact hlower
          simp only [isWord, Bool.or_eq_true, decide_eq_true_eq]
          exact Or.inl (Or.inr hrange)
      · have hrange := Char.isDigit_iff_toNat.mp hdigit
        simp only [isWord, Bool.or_eq_true, decide_eq_true_eq]
        exact Or.inl (Or.inl (Or.inl hrange))
    · rw [beq_iff_eq.mp hunderscore]
      decide
  intro c hc
  rw [points_append] at hc
  rcases List.mem_append.mp hc with hprefix | hkey
  · have hwords : (points "NL_PARAM_").all isWord = true := by decide
    exact List.all_eq_true.mp hwords c hprefix
  · obtain ⟨d, hd, rfl⟩ := List.mem_map.mp hkey
    unfold parameterKeyPattern at h
    split at h
    · cases h
    · next first rest hlist =>
        rw [Bool.and_eq_true, Bool.and_eq_true] at h
        rw [hlist] at hd
        rcases List.mem_cons.mp hd with rfl | hd
        · refine hchar d ?_
          rw [Char.isAlphanum, h.1.1]
          rfl
        · exact hchar d (List.all_eq_true.mp h.1.2 d hd)

theorem bindingLines_powershell (h : normalizedParameter go p = .ok value)
    {lines : List String} (hlines : bindingLines .powershell p value = some lines) :
    lines.flatMap line = powershellText (binding go p) := by
  cases hlines
  have hliteral : points (if p.kind = .boolean then
      (if value = "true" then "$true" else "$false")
      else if p.kind = .number then value else quotePowerShell value) =
        (given go p).literal := by
    rcases (normalized_spec h).2 with ⟨b, hkind, hgiven, hvalue⟩ |
      ⟨hkind, hgiven⟩ | ⟨hbool, hnumber, hgiven⟩
    · rw [if_pos hkind, hgiven, hvalue]
      cases b with
      | true => rfl
      | false => rfl
    · rw [if_neg (by rw [hkind]; decide), if_pos hkind, hgiven]
      rfl
    · rw [if_neg hbool, if_neg hnumber, hgiven, points_quotePowerShell]
      rfl
  rw [List.flatMap_singleton, line, points_append, hliteral, points_append,
    points_append]
  rfl

theorem bindingLines_shell (h : normalizedParameter go p = .ok value)
    {lines : List String} (hlines : bindingLines .shell p value = some lines) :
    lines.flatMap line =
      posixText ((binding go p).1, environmentText (binding go p).2) := by
  cases hlines
  have hvalue : points value = environmentText (given go p) := by
    rcases (normalized_spec h).2 with ⟨b, _, hgiven, hvalue⟩ | ⟨_, hgiven⟩ |
      ⟨_, _, hgiven⟩
    · rw [hgiven, hvalue]
      cases b with
      | true => rfl
      | false => rfl
    · rw [hgiven]
      rfl
    · rw [hgiven]
      rfl
  simp only [List.flatMap_cons, List.flatMap_nil, line, points_append,
    points_quoteShell, hvalue, posixText, binding, List.append_assoc, List.append_nil]
  rfl

theorem points_join (lines : List String) (script : String) :
    points ("\n".intercalate (lines ++ [script])) =
      lines.flatMap line ++ points script := by
  induction lines with
  | nil => rfl
  | cons l lines ih =>
      rw [List.cons_append, String.intercalate_cons_of_ne_nil (by simp),
        points_append, points_append, ih, List.flatMap_cons, line]
      simp only [List.append_assoc]
      rfl

/-- The lines of every parameter, in order. -/
theorem bindParameters_spec {text : ParameterValue → Points}
    (hlines : ∀ p value lines, normalizedParameter go p = .ok value →
      bindingLines kind p value = some lines → lines.flatMap line = text p)
    {parameters : List ParameterValue} {seen lines : List String}
    (h : bindParameters go kind seen parameters = .ok lines) :
    lines.flatMap line = parameters.flatMap text ∧
      ∀ p ∈ parameters, ∃ value, normalizedParameter go p = .ok value := by
  induction parameters generalizing seen lines with
  | nil =>
      cases h
      exact ⟨rfl, fun p hp => by cases hp⟩
  | cons p parameters ih =>
      unfold bindParameters at h
      simp only at h
      split at h
      · cases h
      · split at h
        · cases h
        · next value hvalue =>
            split at h
            · cases h
            · next first hfirst =>
                cases hrest : bindParameters go kind
                  (go.toLower p.key :: seen) parameters with
                | error e =>
                    rw [hrest] at h
                    cases h
                | ok rest =>
                    rw [hrest] at h
                    cases h
                    obtain ⟨htext, hok⟩ := ih hrest
                    refine ⟨?_, fun q hq => ?_⟩
                    · rw [List.flatMap_append, htext,
                        hlines p value first hvalue hfirst, List.flatMap_cons]
                    · rcases List.mem_cons.mp hq with rfl | hq
                      · exact ⟨value, hvalue⟩
                      · exact hok q hq

/-- A text of the parameter holds none of the typographic marks, a number that
was read from JSON is in decimal. -/
def Unambiguous (p : ParameterValue) : Prop :=
  match p.value with
  | .string s => NoTypographic (points s)
  | .jsonNumber text => isDecimal (points text) = true
  | _ => True

theorem given_plain_iff
    (hformat : ∀ x, x.isFinite = true → isDecimal (points (go.formatFloat x)) = true)
    (h : normalizedParameter go p = .ok value) :
    (given go p).Plain ↔ Unambiguous p := by
  cases hvalue : p.value with
  | float64 x =>
      have hfinite : x.isFinite = true := by
        unfold normalizedParameter at h
        split at h
        · cases h
        · rw [hvalue] at h
          split at h
          · cases h
          · cases h
          · cases h
          · cases h
          · simp only at h
            split at h
            · next hx => exact hx
            · cases h
          · cases h
      rw [given, Unambiguous, hvalue]
      exact ⟨fun _ => trivial, fun _ => hformat x hfinite⟩
  | int i =>
      rw [given, Unambiguous, hvalue]
      refine ⟨fun _ => trivial, fun _ => ?_⟩
      show isDecimal (points (itoa i)) = true
      rw [itoa, points_ofList]
      exact isDecimal_intDigits i
  | string s =>
      rw [given, Unambiguous, hvalue]
      exact Iff.rfl
  | jsonNumber text =>
      rw [given, Unambiguous, hvalue]
      exact Iff.rfl
  | bool b =>
      rw [given, Unambiguous, hvalue]
      exact Iff.rfl
  | other =>
      rw [given, Unambiguous, hvalue]
      exact ⟨fun _ => trivial, fun _ c hc => by cases hc⟩

/-- The text reads as the bindings and the script, for the interpreter of the
kind. -/
def ReadByKind (kind : ScriptKind) (text : Points) (bindings : List (Points × Value))
    (script : Points) : Prop :=
  match kind with
  | .powershell => ReadByPowerShell text bindings script
  | .shell => ReadByShell text bindings script
  | .other _ => bindings = [] ∧ text = script

/-- The script with the values of the parameters in front of it is read as such
exactly when it is none for PowerShell or the values are unambiguous there. -/
theorem rendered_reads_iff
    (hformat : ∀ x, x.isFinite = true → isDecimal (points (go.formatFloat x)) = true)
    {script text : String} {parameters : List ParameterValue}
    (h : renderParameterizedScript go kind script parameters = .ok text) :
    ReadByKind kind (points text) (parameters.map (binding go)) (points script) ↔
      kind ≠ .powershell ∨ ∀ p ∈ parameters, Unambiguous p := by
  unfold renderParameterizedScript at h
  split at h
  · next hnil =>
      cases h
      rw [hnil]
      refine ⟨fun _ => Or.inr fun p hp => (by cases hp), fun _ => ?_⟩
      cases kind with
      | powershell => exact rfl
      | shell => exact rfl
      | other k => exact ⟨rfl, rfl⟩
  · next hne =>
      split at h
      · cases h
      · cases hlines : bindParameters go kind [] parameters with
        | error e =>
            rw [hlines] at h
            cases h
        | ok lines =>
            rw [hlines] at h
            cases h
            rw [points_join]
            cases kind with
            | powershell =>
                obtain ⟨htext, hok⟩ := bindParameters_spec
                  (fun _ _ _ hvalue hl => bindingLines_powershell hvalue hl) hlines
                have hnames : ∀ b ∈ parameters.map (binding go), ∀ c ∈ b.1,
                    isWord c = true := by
                  intro b hb
                  obtain ⟨p, hp, rfl⟩ := List.mem_map.mp hb
                  obtain ⟨value, hvalue⟩ := hok p hp
                  exact name_words (normalized_spec hvalue).1
                have hreads := powershell_reads_iff hnames (points script)
                rw [List.flatMap_map, ← htext] at hreads
                refine hreads.trans ⟨fun hplain => Or.inr fun p hp => ?_,
                  fun hclear b hb => ?_⟩
                · obtain ⟨value, hvalue⟩ := hok p hp
                  exact (given_plain_iff hformat hvalue).mp
                    (hplain (binding go p) (List.mem_map_of_mem hp))
                · obtain ⟨p, hp, rfl⟩ := List.mem_map.mp hb
                  obtain ⟨value, hvalue⟩ := hok p hp
                  rcases hclear with hkind | hclear
                  · exact absurd rfl hkind
                  · exact (given_plain_iff hformat hvalue).mpr (hclear p hp)
            | shell =>
                obtain ⟨htext, hok⟩ := bindParameters_spec
                  (fun _ _ _ hvalue hl => bindingLines_shell hvalue hl) hlines
                refine ⟨fun _ => Or.inl fun hkind => (by cases hkind), fun _ => ?_⟩
                have hnames : ∀ b ∈ (parameters.map (binding go)).map
                    (fun b => (b.1, environmentText b.2)), ∀ c ∈ b.1,
                    isWord c = true := by
                  intro b hb
                  obtain ⟨b', hb', rfl⟩ := List.mem_map.mp hb
                  obtain ⟨p, hp, rfl⟩ := List.mem_map.mp hb'
                  obtain ⟨value, hvalue⟩ := hok p hp
                  exact name_words (normalized_spec hvalue).1
                have hreads := posix_reads hnames (points script)
                rw [List.flatMap_map, List.flatMap_map, ← htext,
                  List.length_map] at hreads
                exact hreads
            | other k =>
                obtain ⟨p, rest, rfl⟩ := List.exists_cons_of_ne_nil hne
                exfalso
                unfold bindParameters at hlines
                simp only [List.not_mem_nil, if_false] at hlines
                split at hlines
                · cases hlines
                · cases hlines

end Agent

/-! ## The server's script -/

section Server

open Server.ScriptParameters
open Agent.ScriptParameters (parameterKeyPattern)

variable {floats : FloatText} {value : ScriptValue} {key : String}

def pyPoints (s : PyStr) : Points := s.map Fin.val

theorem pyPoints_py (s : String) : pyPoints (py s) = points s := by
  rw [pyPoints, py, List.map_map]
  rfl

theorem pyPoints_append (a b : PyStr) : pyPoints (a ++ b) = pyPoints a ++ pyPoints b :=
  List.map_append

theorem pyPoints_replace (s new : PyStr) : pyPoints (replaceApostrophes s new) =
    (pyPoints s).flatMap fun c => if c = 39 then pyPoints new else [c] := by
  have happly : ∀ c : CodePoint,
      (if c = ofChar '\x27' then new else [c]).map Fin.val =
        if c.val = 39 then pyPoints new else [c.val] := by
    intro c
    by_cases hc : c = ofChar '\x27'
    · rw [if_pos hc, hc]
      rfl
    · have hne : c.val ≠ 39 := fun h => hc (Fin.ext h)
      rw [if_neg hc, if_neg hne]
      rfl
  rw [replaceApostrophes, pyPoints, List.map_flatMap, funext happly]
  unfold pyPoints
  rw [List.flatMap_map]

/-- The value that is given. -/
def givenValue (floats : FloatText) : ScriptValue → Value
  | .str s => .text (pyPoints s)
  | .int i => .number ((intDigits i).map Char.toNat)
  | .float x => .number (points (floats.repr x))
  | .bool b => .bool b

def valueBinding (floats : FloatText) (e : String × ScriptValue) : Points × Value :=
  (points ("NL_PARAM_" ++ e.1), givenValue floats e.2)

/-- A number that `json.dumps` writes. -/
def ScriptValueFinite : ScriptValue → Prop
  | .float x => x.isFinite = true
  | _ => True

theorem dumpsNumber_ok {n : PyNumber} {s : PyStr} (h : dumpsNumber floats n = .ok s) :
    (∀ i, n = .int i → pyPoints s = (intDigits i).map Char.toNat) ∧
      ∀ x, n = .float x → x.isFinite = true ∧ pyPoints s = points (floats.repr x) := by
  cases n with
  | int i =>
      cases h
      refine ⟨fun j hj => ?_, fun x hx => (by cases hx)⟩
      cases hj
      rw [pyPoints, List.map_map]
      rfl
  | float x =>
      refine ⟨fun j hj => (by cases hj), fun y hy => ?_⟩
      cases hy
      rw [dumpsNumber] at h
      split at h
      · next hx =>
          cases h
          exact ⟨hx, pyPoints_py _⟩
      · cases h

theorem powershellLiteral_ok {s : PyStr} (h : powershellLiteral floats value = .ok s) :
    pyPoints s = (givenValue floats value).literal ∧ ScriptValueFinite value := by
  cases value with
  | str w =>
      cases h
      refine ⟨?_, trivial⟩
      rw [pyPoints_append, pyPoints_append, pyPoints_replace]
      rfl
  | int i =>
      have h : dumpsNumber floats (.int i) = .ok s := h
      exact ⟨(dumpsNumber_ok h).1 i rfl, trivial⟩
  | float x =>
      have h : dumpsNumber floats (.float x) = .ok s := h
      obtain ⟨hfinite, htext⟩ := (dumpsNumber_ok h).2 x rfl
      exact ⟨htext, hfinite⟩
  | bool b =>
      cases h
      cases b with
      | true => exact ⟨rfl, trivial⟩
      | false => exact ⟨rfl, trivial⟩

theorem shellLiteral_ok {s : PyStr} (h : shellLiteral floats value = .ok s) :
    pyPoints s = posixQuoted (environmentText (givenValue floats value)) := by
  obtain ⟨w, hw, rfl⟩ : ∃ w, shellText floats value = .ok w ∧
      py "'" ++ replaceApostrophes w (py "'\"'\"'") ++ py "'" = s := by
    unfold shellLiteral at h
    cases hw : shellText floats value with
    | error e =>
        rw [hw] at h
        cases h
    | ok w =>
        rw [hw] at h
        cases h
        exact ⟨w, rfl, rfl⟩
  have htext : pyPoints w = environmentText (givenValue floats value) := by
    cases value with
    | str v =>
        cases hw
        rfl
    | int i =>
        have hw : dumpsNumber floats (.int i) = .ok w := hw
        exact (dumpsNumber_ok hw).1 i rfl
    | float x =>
        have hw : dumpsNumber floats (.float x) = .ok w := hw
        exact ((dumpsNumber_ok hw).2 x rfl).2
    | bool b =>
        cases hw
        cases b with
        | true => rfl
        | false => rfl
  rw [pyPoints_append, pyPoints_append, pyPoints_replace, htext]
  rfl

/-- A line of the script, with its end. -/
def pyLine (s : PyStr) : Points := pyPoints s ++ [10]

theorem valueLines_powershell {lines : List PyStr}
    (h : bindingLines floats .powershell key value = .ok lines) :
    lines.flatMap pyLine = powershellText (valueBinding floats (key, value)) ∧
      ScriptValueFinite value := by
  unfold bindingLines at h
  cases hl : powershellLiteral floats value with
  | error e =>
      rw [hl] at h
      cases h
  | ok s =>
      rw [hl] at h
      cases h
      obtain ⟨htext, hfinite⟩ := powershellLiteral_ok hl
      refine ⟨?_, hfinite⟩
      simp only [List.flatMap_cons, List.flatMap_nil, pyLine, pyPoints_append,
        pyPoints_py, htext, powershellText, valueBinding, List.append_nil]
      rfl

theorem valueLines_shell {lines : List PyStr}
    (h : bindingLines floats .shell key value = .ok lines) :
    lines.flatMap pyLine = posixText (points ("NL_PARAM_" ++ key),
      environmentText (givenValue floats value)) := by
  unfold bindingLines at h
  cases hl : shellLiteral floats value with
  | error e =>
      rw [hl] at h
      cases h
  | ok s =>
      rw [hl] at h
      cases h
      have htext := shellLiteral_ok hl
      simp only [List.flatMap_cons, List.flatMap_nil, pyLine, pyPoints_append,
        pyPoints_py, htext, posixText, List.append_assoc, List.append_nil]
      rfl

theorem joinLines_points (lines : List PyStr) (script : PyStr) :
    pyPoints (joinLines lines script) = lines.flatMap pyLine ++ pyPoints script := by
  induction lines with
  | nil => rfl
  | cons l lines ih =>
      rw [joinLines, pyPoints_append, pyPoints_append, ih, List.flatMap_cons, pyLine,
        List.append_assoc, List.append_assoc, List.append_assoc]
      rfl

theorem bindValues_spec {language : ScriptLanguage}
    {text : String × ScriptValue → Points} {P : ScriptValue → Prop}
    (hlines : ∀ key value lines, bindingLines floats language key value = .ok lines →
      lines.flatMap pyLine = text (key, value) ∧ P value)
    {values : List (String × ScriptValue)} {lines : List PyStr}
    (h : bindValues floats language values = .ok lines) :
    lines.flatMap pyLine = values.flatMap text ∧ ∀ e ∈ values, P e.2 := by
  induction values generalizing lines with
  | nil =>
      cases h
      exact ⟨rfl, fun e he => by cases he⟩
  | cons e values ih =>
      obtain ⟨key, value⟩ := e
      unfold bindValues at h
      split at h
      · cases h
      · next first hfirst =>
          cases hrest : bindValues floats language values with
          | error e =>
              rw [hrest] at h
              cases h
          | ok rest =>
              rw [hrest] at h
              cases h
              obtain ⟨htext, hall⟩ := ih hrest
              obtain ⟨hline, hvalue⟩ := hlines key value first hfirst
              refine ⟨?_, fun e he => ?_⟩
              · rw [List.flatMap_append, htext, hline, List.flatMap_cons]
              · rcases List.mem_cons.mp he with rfl | he
                · exact hvalue
                · exact hall e he

/-- A text of the value holds none of the typographic marks. -/
def UnambiguousValue : ScriptValue → Prop
  | .str s => NoTypographic (pyPoints s)
  | _ => True

theorem givenValue_plain_iff
    (hrepr : ∀ x, x.isFinite = true → isDecimal (points (floats.repr x)) = true)
    (h : ScriptValueFinite value) :
    (givenValue floats value).Plain ↔ UnambiguousValue value := by
  cases value with
  | str s => exact Iff.rfl
  | int i => exact ⟨fun _ => trivial, fun _ => isDecimal_intDigits i⟩
  | float x => exact ⟨fun _ => trivial, fun _ => hrepr x h⟩
  | bool b => exact Iff.rfl

def ReadByLanguage (language : ScriptLanguage) (text : Points)
    (bindings : List (Points × Value)) (script : Points) : Prop :=
  match language with
  | .powershell => ReadByPowerShell text bindings script
  | .shell => ReadByShell text bindings script
  | .other _ => bindings = [] ∧ text = script

theorem script_reads_iff
    (hrepr : ∀ x, x.isFinite = true → isDecimal (points (floats.repr x)) = true)
    {language : ScriptLanguage} {script text : PyStr}
    {values : List (String × ScriptValue)}
    (hkeys : ∀ e ∈ values, parameterKeyPattern e.1 = true)
    (h : renderScript floats language script values = .ok text) :
    ReadByLanguage language (pyPoints text) (values.map (valueBinding floats))
        (pyPoints script) ↔
      language ≠ .powershell ∨ ∀ e ∈ values, UnambiguousValue e.2 := by
  have hname : ∀ e ∈ values, ∀ c ∈ points ("NL_PARAM_" ++ e.1), isWord c = true :=
    fun e he => @name_words ⟨e.1, .string, .other, false⟩ (hkeys e he)
  cases language with
  | powershell =>
      unfold renderScript at h
      cases hlines : bindValues floats .powershell values with
      | error e =>
          simp only [hlines] at h
          cases h
      | ok lines =>
          simp only [hlines] at h
          cases h
          obtain ⟨htext, hfinite⟩ := @bindValues_spec floats .powershell
            (fun e => powershellText (valueBinding floats e)) ScriptValueFinite
            (fun _ _ _ hl => valueLines_powershell hl) values lines hlines
          have hnames : ∀ b ∈ values.map (valueBinding floats), ∀ c ∈ b.1,
              isWord c = true := by
            intro b hb
            obtain ⟨e, he, rfl⟩ := List.mem_map.mp hb
            exact hname e he
          have hreads := powershell_reads_iff hnames (pyPoints script)
          rw [List.flatMap_map, ← htext, ← joinLines_points] at hreads
          refine hreads.trans ⟨fun hplain => Or.inr fun e he => ?_,
            fun hclear b hb => ?_⟩
          · exact (givenValue_plain_iff hrepr (hfinite e he)).mp
              (hplain (valueBinding floats e) (List.mem_map_of_mem he))
          · obtain ⟨e, he, rfl⟩ := List.mem_map.mp hb
            rcases hclear with hlanguage | hclear
            · exact absurd rfl hlanguage
            · exact (givenValue_plain_iff hrepr (hfinite e he)).mpr (hclear e he)
  | shell =>
      unfold renderScript at h
      cases hlines : bindValues floats .shell values with
      | error e =>
          simp only [hlines] at h
          cases h
      | ok lines =>
          simp only [hlines] at h
          cases h
          obtain ⟨htext, _⟩ := @bindValues_spec floats .shell
            (fun e => posixText ((valueBinding floats e).1,
              environmentText (valueBinding floats e).2)) (fun _ => True)
            (fun _ _ _ hl => ⟨valueLines_shell hl, trivial⟩) values lines hlines
          refine ⟨fun _ => Or.inl fun hlanguage => (by cases hlanguage), fun _ => ?_⟩
          have hnames : ∀ b ∈ (values.map (valueBinding floats)).map
              (fun b => (b.1, environmentText b.2)), ∀ c ∈ b.1, isWord c = true := by
            intro b hb
            obtain ⟨b', hb', rfl⟩ := List.mem_map.mp hb
            obtain ⟨e, he, rfl⟩ := List.mem_map.mp hb'
            exact hname e he
          have hreads := posix_reads hnames (pyPoints script)
          rw [List.flatMap_map, List.flatMap_map, List.length_map] at hreads
          rw [joinLines_points, htext]
          exact hreads
  | other l => cases h

end Server

/-! ## Both ends -/

open Agent.ScriptParameters in
/-- What the agent and the server put in front of a script is read as one
assignment for each parameter, of the value that was given, with the script after
them, exactly when it is not for PowerShell or no value has a typographic mark
there, and no number of the agent's is in other than decimal. -/
theorem script_parameters_data_iff {go : GoText} {floats : FloatText}
    (hformat : ∀ x, x.isFinite = true → isDecimal (points (go.formatFloat x)) = true)
    (hrepr : ∀ x, x.isFinite = true → isDecimal (points (floats.repr x)) = true) :
    (∀ kind script parameters text,
      renderParameterizedScript go kind script parameters = .ok text →
        (ReadByKind kind (points text) (parameters.map (binding go)) (points script) ↔
          kind ≠ .powershell ∨ ∀ p ∈ parameters, Unambiguous p)) ∧
    ∀ language script values text,
      (∀ e ∈ values, parameterKeyPattern e.1 = true) →
      Server.ScriptParameters.renderScript floats language script values = .ok text →
        (ReadByLanguage language (pyPoints text) (values.map (valueBinding floats))
            (pyPoints script) ↔
          language ≠ .powershell ∨ ∀ e ∈ values, UnambiguousValue e.2) :=
  ⟨fun _ _ _ _ h => rendered_reads_iff hformat h,
    fun _ _ _ _ hkeys h => script_reads_iff hrepr hkeys h⟩

section Samples

open Agent.ScriptParameters

def sampleGo : GoText :=
  ⟨fun s => String.ofList (s.toList.map Char.toLower), fun _ => none, fun _ => "0"⟩

def sampleFloats : FloatText := ⟨fun _ => 0, fun _ => "0.0"⟩

def nameParameter (value : String) : ParameterValue :=
  ⟨"Name", .string, .string value, false⟩

def sizeParameter : ParameterValue := ⟨"Size", .number, .float64 0, false⟩

/-- A text with an apostrophe, and a number. -/
theorem script_parameters_data_sample :
    ReadByPowerShell
        (points "$NL_PARAM_Name = 'a'';'\n$NL_PARAM_Size = 0\nexit")
        [(points "NL_PARAM_Name", .text (points "a';")),
          (points "NL_PARAM_Size", .number (points "0"))] (points "exit") ∧
      ReadByPowerShell
        (pyPoints (py "$NL_PARAM_Name = 'a'';'\n$NL_PARAM_Size = 0.0\nexit"))
        [(points "NL_PARAM_Name", .text (pyPoints (py "a';"))),
          (points "NL_PARAM_Size", .number (points "0.0"))]
        (pyPoints (py "exit")) := by
  have hgo : isDecimal (points "0") = true := by decide
  have hfloats : isDecimal (points "0.0") = true := by decide
  have hdata := @script_parameters_data_iff sampleGo sampleFloats
    (fun _ _ => hgo) (fun _ _ => hfloats)
  have htext : NoTypographic (points "a';") := by
    unfold NoTypographic
    decide
  constructor
  · refine (hdata.1 .powershell "exit" [nameParameter "a';", sizeParameter] _
      (by decide)).mpr (Or.inr fun p hp => ?_)
    simp only [List.mem_cons, List.not_mem_nil, or_false] at hp
    rcases hp with rfl | rfl
    · exact htext
    · trivial
  · refine (hdata.2 .powershell (py "exit")
      [("Name", .str (py "a';")), ("Size", .float 0)] _ (fun e he => ?_)
      (by rfl)).mpr (Or.inr fun e he => ?_)
    · simp only [List.mem_cons, List.not_mem_nil, or_false] at he
      rcases he with rfl | rfl
      · decide
      · decide
    · simp only [List.mem_cons, List.not_mem_nil, or_false] at he
      rcases he with rfl | rfl
      · exact htext
      · trivial

/-- A value that closes its literal with a typographic apostrophe is read as the
end of it, and a statement after it, from the agent and from the server. -/
theorem script_parameters_not_data :
    (∃ text,
      renderParameterizedScript sampleGo .powershell "exit"
          [nameParameter "’; Restart-Computer; #"] = .ok text ∧
        ¬ ReadByPowerShell (points text)
          [(points "NL_PARAM_Name", .text (points "’; Restart-Computer; #"))]
          (points "exit")) ∧
      ∃ text,
        Server.ScriptParameters.renderScript sampleFloats .powershell (py "exit")
            [("Name", .str (py "’; Restart-Computer; #"))] = .ok text ∧
          ¬ ReadByPowerShell (pyPoints text)
            [(points "NL_PARAM_Name",
              .text (pyPoints (py "’; Restart-Computer; #")))]
            (pyPoints (py "exit")) := by
  unfold ReadByPowerShell
  exact ⟨⟨_, rfl, by decide +kernel⟩, ⟨_, rfl, by decide +kernel⟩⟩

end Samples

end NodeLink.Proofs.ScriptBindings
