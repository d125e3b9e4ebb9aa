import NodeLink.Server.EnrollmentTokens

/-!
# What enrollment tokens admit

The spend is a conditional update of the row as it stands, and the agent is
committed with it or not at all, so the uses of a token count its agents
whether or not the row is locked. The checks are made on a copy, but nothing
changes the columns they look at. One of them looks at another text than the
one that is stored: the host name is compared as it arrives and kept stripped.
The two differ for a restriction with a separator of ASCII at an end, which
Pydantic leaves there; runs without such an enrollment keep every restriction.
-/

namespace NodeLink.Proofs.TokenAdmissions

open Lib Server.EnrollmentTokens

variable {cfg : Config} {F : CaseFolding} {s : State}
  {token token' : EnrollmentToken} {x y : Txn} {t u : Nat}

/-! ## Claims -/

@[simp] theorem given_some {value : String} :
    given (some value) = true ↔ value ≠ "" := decide_eq_true_iff

theorem sameClaim_some {r h : String} (hr : r ≠ "") :
    sameClaim F (some r) (some h) = true ↔
      h ≠ "" ∧ F.casefold r = F.casefold h := by
  rw [sameClaim, if_pos (given_some.mpr hr), Bool.and_eq_true, given_some,
    decide_eq_true_iff, Option.map_some, Option.map_some, Option.some_inj]

theorem sameClaim_empty {actual : Option String} :
    sameClaim F (some "") actual = true := rfl

theorem sameClaim_self {claim : Option String} :
    sameClaim F claim claim = true := by
  rw [sameClaim]
  split
  · next h =>
      rw [Bool.and_eq_true]
      exact ⟨h, decide_eq_true rfl⟩
  · rfl

/-- A host name that satisfies a restriction satisfies it stripped exactly when
the restriction is stripped itself. -/
theorem sameClaim_strip_iff {r h : String}
    (hclaim : sameClaim F (some r) (some h) = true) :
    sameClaim F (some r) (some (strip h)) = true ↔ strip r = r := by
  by_cases hr : r = ""
  · rw [hr]
    exact ⟨fun _ => rfl, fun _ => sameClaim_empty⟩
  · obtain ⟨hne, hfold⟩ := (sameClaim_some hr).mp hclaim
    constructor
    · intro hstrip
      have hfold' := ((sameClaim_some hr).mp hstrip).2
      exact (CaseFolding.strip_iff_of_casefold hfold').mpr strip_strip
    · intro hstrip
      rw [(CaseFolding.strip_iff_of_casefold hfold).mp hstrip]
      exact hclaim

/-! ## What an agent may be -/

/-- The agent carries the site of the token and satisfies its restrictions. -/
structure Admits (F : CaseFolding) (token : EnrollmentToken) (a : Agent) :
    Prop where
  site : a.siteId = token.siteId
  hostname : sameClaim F token.hostnameRestriction (some a.hostname) = true
  name : sameClaim F token.agentNameRestriction (some a.name) = true
  environment : sameClaim F token.environment a.environment = true

/-- The columns no redemption and no revocation writes. -/
structure SameTerms (token token' : EnrollmentToken) : Prop where
  site : token'.siteId = token.siteId
  hostname : token'.hostnameRestriction = token.hostnameRestriction
  name : token'.agentNameRestriction = token.agentNameRestriction
  environment : token'.environment = token.environment
  maxUses : token'.maxUses = token.maxUses

theorem SameTerms.refl : SameTerms token token := ⟨rfl, rfl, rfl, rfl, rfl⟩

theorem sameTerms_spend {now : Int} : SameTerms token (spend now token) :=
  ⟨rfl, rfl, rfl, rfl, rfl⟩

theorem sameTerms_revokeEdit {now : Int} {operator : String} :
    SameTerms token (revokeEdit now operator token) :=
  ⟨rfl, rfl, rfl, rfl, rfl⟩

theorem SameTerms.trans {token'' : EnrollmentToken} (h : SameTerms token token')
    (h' : SameTerms token' token'') : SameTerms token token'' :=
  ⟨h'.site.trans h.site, h'.hostname.trans h.hostname, h'.name.trans h.name,
    h'.environment.trans h.environment, h'.maxUses.trans h.maxUses⟩

theorem Admits.of_sameTerms {a : Agent} (h : Admits F token a)
    (hterms : SameTerms token token') : Admits F token' a where
  site := h.site.trans hterms.site.symm
  hostname := by rw [hterms.hostname]; exact h.hostname
  name := by rw [hterms.name]; exact h.name
  environment := by rw [hterms.environment]; exact h.environment

/-- The claims of a request satisfy the restrictions of a token, the host name
as it will be stored. -/
structure Claims (F : CaseFolding) (token : EnrollmentToken)
    (body : EnrollRequest) : Prop where
  hostname : sameClaim F token.hostnameRestriction
    (some (strip body.hostname)) = true
  name : sameClaim F token.agentNameRestriction
    (some (resolvedName body)) = true

theorem Claims.newAgent {body : EnrollRequest} (h : Claims cfg.folding token body)
    (hterms : SameTerms token token') {key id agentToken : String}
    {sourceIp : Option String} {now : Int} :
    Admits cfg.folding token'
      (newAgent cfg key token' body sourceIp now id agentToken) where
  site := rfl
  hostname := by rw [hterms.hostname]; exact h.hostname
  name := by rw [hterms.name]; exact h.name
  environment := by
    rw [Server.EnrollmentTokens.newAgent]
    by_cases hgiven : given token'.environment = true
    · simp only [hgiven, if_true]
      exact sameClaim_self
    · rw [sameClaim, if_neg hgiven]

/-- The restriction of a host name that is claimed has no separator of ASCII at
its ends. -/
def Plain (F : CaseFolding) (token : EnrollmentToken) (body : EnrollRequest) :
    Prop :=
  ∀ r, token.hostnameRestriction = some r →
    F.casefold r = F.casefold body.hostname → strip r = r

/-- The checks of a redemption before the one of the host name pass. -/
def ReachesHostname (F : CaseFolding) (token : EnrollmentToken)
    (site : Option Site) (body : EnrollRequest) (now : Int) : Prop :=
  spendable now token = true ∧ site ≠ none ∧
    (given body.site = true → sameClaim F (site.map (·.name)) body.site = true)

theorem claims_of_check {site : Option Site} {body : EnrollRequest} {now : Int}
    (h : check F token site body now = .ok ())
    (hreaches : ReachesHostname F token site body now → Plain F token body) :
    Claims F token body := by
  simp only [check, bind_eq_ok, require_eq_ok, exists_const] at h
  obtain ⟨⟨hrevoked, hat⟩, hexpiry, huses, hsite, hmatches, hhost, hname, _⟩ := h
  have hspendable : spendable now token = true := by
    rw [spendable, hrevoked, hat, hexpiry, decide_eq_true huses]
    rfl
  have hplain := hreaches ⟨hspendable, hsite, hmatches⟩
  refine ⟨?_, hname⟩
  cases hr : token.hostnameRestriction with
  | none => rfl
  | some r =>
      rw [hr] at hhost
      by_cases hempty : r = ""
      · rw [hempty]
        exact sameClaim_empty
      · have hfold := ((sameClaim_some hempty).mp hhost).2
        exact (sameClaim_strip_iff hhost).mpr (hplain r hr hfold)

/-! ## The books -/

/-- How many agents reference a token. -/
def references (s : State) (key : String) : Nat :=
  s.agents.countP fun a => decide (a.enrolledByTokenId = key)

/-- The uses of every token count its agents and stay within bounds, and every
agent is one its token admits. -/
structure Honoured (F : CaseFolding) (s : State) : Prop where
  counted : ∀ key token, s.tokens key = some token →
    token.uses = references s key ∧ token.uses ≤ token.maxUses
  admitted : ∀ a ∈ s.agents, ∃ token,
    s.tokens a.enrolledByTokenId = some token ∧ Admits F token a

/-- What a transaction has written, over the row as it stands: nothing yet, a
spend with its agent, or a revocation. -/
inductive Pending (F : CaseFolding) (x : Txn) (token : EnrollmentToken) :
    Prop where
  | nothing (written : x.written = none) (agent : x.agent = none)
  | spent (a : Agent) (written : x.written = some (spend x.now token))
    (agent : x.agent = some a) (spendable : spendable x.now token = true)
    (key : a.enrolledByTokenId = x.key) (admits : Admits F token a)
  | revoked (operator : String)
    (written : x.written = some (revokeEdit x.now operator token))
    (agent : x.agent = none)

/-- What a request under way may rely on. -/
structure Sound (F : CaseFolding) (s : State) (x : Txn) : Prop where
  row : ∃ token, s.tokens x.key = some token ∧ SameTerms x.read token ∧
    Pending F x token
  claims : ∀ body sourceIp, x.request = .redeem body sourceIp →
    Claims F x.read body

/-- Every request is sound, and one at most has written a row. -/
structure AllSound (F : CaseFolding) (s : State) : Prop where
  each : ∀ t x, s.txns.Has t x → Sound F s x
  alone : ∀ t x u y, s.txns.Has t x → s.txns.Has u y → u ≠ t →
    y.key = x.key → x.written.isSome = true → y.written = none

theorem Sound.of_tokens {s' : State} (h : Sound F s x)
    (heq : s'.tokens x.key = s.tokens x.key) : Sound F s' x := by
  obtain ⟨hrow, hclaims⟩ := h
  rw [← heq] at hrow
  exact ⟨hrow, hclaims⟩

theorem Honoured.of_eq {s' : State} (h : Honoured F s)
    (htokens : s'.tokens = s.tokens) (hagents : s'.agents = s.agents) :
    Honoured F s' := by
  obtain ⟨hcounted, hadmitted⟩ := h
  rw [← htokens] at hcounted hadmitted
  rw [← hagents] at hadmitted
  refine ⟨fun key token htoken => ?_, hadmitted⟩
  rw [references, hagents]
  exact hcounted key token htoken

theorem AllSound.close (h : AllSound F s) (t : Nat) :
    AllSound F { s with txns := s.txns.close t } where
  each u y hy := (h.each u y (Open.has_close.mp hy).1).of_tokens rfl
  alone u y v z hy hz :=
    h.alone u y v z (Open.has_close.mp hy).1 (Open.has_close.mp hz).1

/-- A request that has written nothing may come or go on. -/
theorem AllSound.put (h : AllSound F s) (hx : Sound F s x)
    (halone : x.written.isSome = true → s.heldByOther t x.key = false) :
    AllSound F { s with txns := s.txns.put t x } where
  each u y hy := by
    rcases Open.has_put.mp hy with ⟨_, rfl⟩ | ⟨hold, _⟩
    · exact hx.of_tokens rfl
    · exact (h.each u y hold).of_tokens rfl
  alone u y v z hy hz hne hkey hwritten := by
    have hother : ∀ w z, s.txns.Has w z → w ≠ t → z.key = x.key →
        x.written.isSome = true → z.written = none := by
      intro w z hz hw hkey hwritten
      have hfree := Open.not_of_other (halone hwritten) hz hw
      rw [Txn.holds, hkey, decide_eq_true rfl, Bool.true_and,
        Bool.or_eq_false_iff] at hfree
      exact Option.not_isSome_iff_eq_none.mp (by rw [hfree.2]; simp)
    rcases Open.has_put.mp hy with ⟨hu, rfl⟩ | ⟨hyold, hu⟩
    · rcases Open.has_put.mp hz with ⟨hv, _⟩ | ⟨hzold, hv⟩
      · exact absurd (hv.trans hu.symm) hne
      · exact hother v z hzold hv hkey hwritten
    · rcases Open.has_put.mp hz with ⟨_, rfl⟩ | ⟨hzold, _⟩
      · cases hz' : z.written with
        | none => rfl
        | some w =>
            have hnone := hother u y hyold hu hkey.symm (by rw [hz']; rfl)
            rw [hnone] at hwritten
            cases hwritten
      · exact h.alone u y v z hyold hzold hne hkey hwritten

/-! ## One action -/

theorem tokens_of_select {digest key : String}
    (h : s.select digest = some (key, token)) : s.tokens key = some token := by
  unfold State.select at h
  split at h
  · next e hfilter =>
      have hmem : e ∈ s.ids.filterMap fun id =>
          (s.tokens id).map fun token => (id, token) := by
        refine (List.mem_filter (p := fun e : String × EnrollmentToken =>
          decide (e.2.tokenHash = digest))).mp ?_ |>.1
        rw [hfilter]
        exact List.mem_singleton_self e
      obtain ⟨id, _, hid⟩ := List.mem_filterMap.mp hmem
      obtain ⟨row, hrow, hpair⟩ := Option.map_eq_some_iff.mp hid
      cases hpair.trans (Option.some.inj h)
      exact hrow
  · cases h

/-- Runs without the enrollment of a host whose restriction is not plain, as far
as its host name is looked at. -/
def Clear (cfg : Config) (s : State) : Action → Prop
  | .redeem _ now body _ => ∀ key token,
    s.select (cfg.hashToken body.enrollmentToken) = some (key, token) →
      ReachesHostname cfg.folding token (s.sites token.siteId) body now →
        Plain cfg.folding token body
  | _ => True

theorem load_sound {now : Int} {body : EnrollRequest} {sourceIp : Option String}
    (h : load cfg s now body sourceIp = .ok x)
    (hclear : Clear cfg s (.redeem t now body sourceIp)) :
    Sound cfg.folding s x ∧ x.written = none ∧ x.agent = none := by
  unfold load at h
  split at h
  · cases h
  · next key token hselect =>
      obtain ⟨_, hcheck, hx⟩ := bind_eq_ok.mp h
      cases hx
      refine ⟨⟨⟨token, tokens_of_select hselect, .refl, .nothing rfl rfl⟩, ?_⟩,
        rfl, rfl⟩
      intro body' sourceIp' hrequest
      cases hrequest
      exact claims_of_check hcheck (hclear key token hselect)

theorem spendable_iff {now : Int} :
    spendable now token = true ↔ token.revoked = false ∧
      token.revokedAt = none ∧ unexpired now token = true ∧
      token.uses < token.maxUses := by
  rw [spendable]
  simp only [Bool.and_eq_true, Bool.not_eq_true', Option.isNone_iff_eq_none,
    decide_eq_true_eq, and_assoc]

/-- What the conditional update of a redemption found and did. -/
theorem consume_ok {body : EnrollRequest} {sourceIp : Option String}
    {agentId agentToken : String}
    (h : consume cfg s x body sourceIp agentId agentToken = .ok y) :
    ∃ token, s.tokens x.key = some token ∧ spendable x.now token = true ∧
      y = { x with
        written := some (spend x.now token)
        agent := some (newAgent cfg x.key (spend x.now token) body sourceIp
          x.now agentId agentToken) } := by
  unfold consume at h
  split at h
  · cases h
  · next token htoken =>
      split at h
      · next hspendable => exact ⟨token, htoken, hspendable, by cases h; rfl⟩
      · cases h

theorem consume_sound {body : EnrollRequest} {sourceIp : Option String}
    {agentId agentToken : String} (hx : Sound cfg.folding s x)
    (hrequest : x.request = .redeem body sourceIp)
    (h : consume cfg s x body sourceIp agentId agentToken = .ok y) :
    Sound cfg.folding s y ∧ y.key = x.key := by
  obtain ⟨token, htoken, hspendable, rfl⟩ := consume_ok h
  obtain ⟨row, hrow, hterms, _⟩ := hx.row
  rw [htoken] at hrow
  cases hrow
  have hadmits : Admits cfg.folding (spend x.now token)
      (newAgent cfg x.key (spend x.now token) body sourceIp x.now agentId
        agentToken) :=
    (hx.claims body sourceIp hrequest).newAgent
      (hterms.trans sameTerms_spend)
  refine ⟨⟨⟨token, htoken, hterms, .spent _ rfl rfl hspendable rfl ?_⟩,
    hx.claims⟩, rfl⟩
  exact ⟨hadmits.site, hadmits.hostname, hadmits.name, hadmits.environment⟩

theorem write_sound {operator : String} (hx : Sound F s x)
    (hrequest : x.request = .revoke operator)
    (htoken : s.tokens x.key = some token) (hagent : x.agent = none) :
    Sound F s { x with written := some (revokeEdit x.now operator token) } := by
  obtain ⟨row, hrow, hterms, _⟩ := hx.row
  rw [htoken] at hrow
  cases hrow
  refine ⟨⟨token, htoken, hterms, .revoked operator rfl hagent⟩, ?_⟩
  intro body sourceIp hredeem
  cases hrequest.symm.trans hredeem

/-- The row a transaction has written keeps its terms. -/
theorem Pending.sameTerms {w : EnrollmentToken} (h : Pending F x token)
    (hw : x.written = some w) : SameTerms token w := by
  cases h with
  | nothing hnone _ =>
      rw [hnone] at hw
      cases hw
  | spent a hwritten _ _ _ _ =>
      rw [hwritten] at hw
      cases hw
      exact sameTerms_spend
  | revoked operator hwritten _ =>
      rw [hwritten] at hw
      cases hw
      exact sameTerms_revokeEdit

/-- The state a commit leads to. -/
def committed (s : State) (t : Nat) (x : Txn) : State :=
  { s with
    tokens := Function.update s.tokens x.key x.written
    agents := x.agent.toList ++ s.agents
    txns := s.txns.close t }

theorem AllSound.commit {w : EnrollmentToken} (h : AllSound F s)
    (hx : s.txns.Has t x) (hw : x.written = some w) :
    AllSound F (committed s t x) where
  each u y hy := by
    obtain ⟨hold, hne⟩ := Open.has_close.mp hy
    obtain ⟨⟨row, hrow, hterms, hpending⟩, hclaims⟩ := h.each u y hold
    refine ⟨?_, hclaims⟩
    by_cases hkey : y.key = x.key
    · obtain ⟨token, htoken, _, hpendingx⟩ := (h.each t x hx).row
      rw [hkey, htoken] at hrow
      cases hrow
      have hnone := h.alone t x u y hx hold hne hkey (by rw [hw]; rfl)
      refine ⟨w, ?_, hterms.trans (hpendingx.sameTerms hw), ?_⟩
      · show Function.update s.tokens x.key x.written y.key = some w
        rw [hkey, Function.update_self, hw]
      · cases hpending with
        | nothing hwritten hagent => exact .nothing hwritten hagent
        | spent a hwritten _ _ _ _ =>
            rw [hnone] at hwritten
            cases hwritten
        | revoked operator hwritten _ =>
            rw [hnone] at hwritten
            cases hwritten
    · refine ⟨row, ?_, hterms, hpending⟩
      show Function.update s.tokens x.key x.written y.key = some row
      rw [Function.update_of_ne hkey]
      exact hrow
  alone u y v z hy hz :=
    h.alone u y v z (Open.has_close.mp hy).1 (Open.has_close.mp hz).1

/-- The uses a committed row counts, and the agents. -/
theorem Pending.counted (h : Pending F x token)
    (hcount : token.uses = references s x.key ∧ token.uses ≤ token.maxUses)
    {w : EnrollmentToken} (hw : x.written = some w) :
    w.uses = (x.agent.toList.countP
        fun a => decide (a.enrolledByTokenId = x.key)) + references s x.key ∧
      w.uses ≤ w.maxUses := by
  cases h with
  | nothing hnone _ =>
      rw [hnone] at hw
      cases hw
  | spent a hwritten hagent hspendable hkey _ =>
      rw [hwritten] at hw
      cases hw
      have hone : ([a].countP fun a => decide (a.enrolledByTokenId = x.key)) =
          1 := by
        rw [List.countP_singleton, if_pos (decide_eq_true hkey)]
      obtain ⟨_, _, _, hbound⟩ := spendable_iff.mp hspendable
      rw [hagent, Option.toList_some, hone]
      show token.uses + 1 = _ ∧ token.uses + 1 ≤ token.maxUses
      omega
  | revoked operator hwritten hagent =>
      rw [hwritten] at hw
      cases hw
      rw [hagent, Option.toList_none, List.countP_nil, Nat.zero_add]
      exact hcount

theorem Pending.agent_key (h : Pending F x token) {a : Agent}
    (ha : x.agent = some a) : a.enrolledByTokenId = x.key := by
  cases h with
  | nothing _ hnone => rw [hnone] at ha; cases ha
  | spent b _ hagent _ hkey _ =>
      rw [hagent] at ha
      cases ha
      exact hkey
  | revoked _ _ hnone => rw [hnone] at ha; cases ha

theorem Pending.agent_admits (h : Pending F x token) {a : Agent}
    (ha : x.agent = some a) : Admits F token a := by
  cases h with
  | nothing _ hnone => rw [hnone] at ha; cases ha
  | spent b _ hagent _ _ hadmits =>
      rw [hagent] at ha
      cases ha
      exact hadmits
  | revoked _ _ hnone => rw [hnone] at ha; cases ha

theorem Honoured.commit {w : EnrollmentToken} (h : Honoured F s)
    (hx : Sound F s x) (hw : x.written = some w) :
    Honoured F (committed s t x) := by
  obtain ⟨row, hrow, _, hpending⟩ := hx.row
  have hat : ∀ key, (committed s t x).tokens key =
      if key = x.key then some w else s.tokens key := by
    intro key
    show Function.update s.tokens x.key x.written key = _
    by_cases hkey : key = x.key
    · rw [hkey, Function.update_self, if_pos rfl, hw]
    · rw [Function.update_of_ne hkey, if_neg hkey]
  constructor
  · intro key token htoken
    have hrefs : references (committed s t x) key =
        (x.agent.toList.countP fun a => decide (a.enrolledByTokenId = key)) +
          references s key := List.countP_append
    rw [hat] at htoken
    rw [hrefs]
    by_cases hkey : key = x.key
    · rw [if_pos hkey] at htoken
      cases htoken
      rw [hkey]
      exact hpending.counted (h.counted x.key row hrow) hw
    · rw [if_neg hkey] at htoken
      have hzero : (x.agent.toList.countP
          fun a => decide (a.enrolledByTokenId = key)) = 0 := by
        refine List.countP_eq_zero.mpr fun a ha hdec => ?_
        have hkey' := hpending.agent_key (Option.mem_toList.mp ha)
        exact hkey ((of_decide_eq_true hdec).symm.trans hkey')
      rw [hzero, Nat.zero_add]
      exact h.counted key token htoken
  · intro a ha
    rcases List.mem_append.mp ha with hnew | hold
    · have ha' := Option.mem_toList.mp hnew
      refine ⟨w, ?_, (hpending.agent_admits ha').of_sameTerms
        (hpending.sameTerms hw)⟩
      rw [hat, if_pos (hpending.agent_key ha')]
    · obtain ⟨token, htoken, hadmits⟩ := h.admitted a hold
      by_cases hkey : a.enrolledByTokenId = x.key
      · rw [hkey, hrow] at htoken
        cases htoken
        refine ⟨w, ?_, hadmits.of_sameTerms (hpending.sameTerms hw)⟩
        rw [hat, if_pos hkey]
      · refine ⟨token, ?_, hadmits⟩
        rw [hat, if_neg hkey]
        exact htoken

/-! ## Every action -/

theorem ready_iff {stage : Stage} : ready s t stage = true ↔
    ∃ x, s.txns.get t = some x ∧ x.stage = stage ∧
      s.heldByOther t x.key = false := by
  unfold ready
  split
  · next x hx =>
      simp only [Bool.and_eq_true, decide_eq_true_eq, Bool.not_eq_true']
      constructor
      · intro h
        exact ⟨x, hx, h⟩
      · rintro ⟨y, hy, h⟩
        rw [hx] at hy
        cases hy
        exact h
  · next hnone =>
      constructor
      · intro h
        cases h
      · rintro ⟨y, hy, _⟩
        rw [hnone] at hy
        cases hy

/-- Nothing was written before the stage of writing, and no agent added. -/
theorem nothing_of_stage (h : Sound F s x) (hstage : x.stage ≠ .written) :
    x.written = none ∧ x.agent = none := by
  obtain ⟨row, _, _, hpending⟩ := h.row
  have hwritten : x.written = none := by
    cases hw : x.written with
    | none => rfl
    | some w =>
        refine absurd ?_ hstage
        rw [Txn.stage, hw]
        rfl
  cases hpending with
  | nothing _ hagent => exact ⟨hwritten, hagent⟩
  | spent _ hsome _ _ _ _ =>
      rw [hwritten] at hsome
      cases hsome
  | revoked _ hsome _ =>
      rw [hwritten] at hsome
      cases hsome

/-- No agent references a token that is not there. -/
theorem Honoured.create (h : Honoured F s) {id : String} (hnew : s.tokens id = none)
    (huses : token.uses = 0) :
    Honoured F { s with
      ids := id :: s.ids
      tokens := Function.update s.tokens id (some token) } := by
  have hstands : ∀ key row, s.tokens key = some row →
      Function.update s.tokens id (some token) key = some row := by
    intro key row hrow
    rw [Function.update_of_ne, hrow]
    rintro rfl
    rw [hnew] at hrow
    cases hrow
  constructor
  · intro key row hrow
    by_cases hkey : key = id
    · have hnone : references s id = 0 := by
        refine List.countP_eq_zero.mpr fun a ha hdec => ?_
        obtain ⟨row', hrow', _⟩ := h.admitted a ha
        rw [of_decide_eq_true hdec, hnew] at hrow'
        cases hrow'
      have hrow' : Function.update s.tokens id (some token) key = some row := hrow
      rw [hkey, Function.update_self] at hrow'
      cases hrow'
      rw [huses, hkey]
      exact ⟨hnone.symm, Nat.zero_le _⟩
    · have hrow' : Function.update s.tokens id (some token) key = some row := hrow
      rw [Function.update_of_ne hkey] at hrow'
      exact h.counted key row hrow'
  · intro a ha
    obtain ⟨row, hrow, hadmits⟩ := h.admitted a ha
    exact ⟨row, hstands _ _ hrow, hadmits⟩

theorem AllSound.create (h : AllSound F s) {id : String}
    (hnew : s.tokens id = none) :
    AllSound F { s with
      ids := id :: s.ids
      tokens := Function.update s.tokens id (some token) } where
  each u y hy := by
    refine (h.each u y hy).of_tokens ?_
    obtain ⟨row, hrow, _⟩ := (h.each u y hy).row
    refine Function.update_of_ne ?_ _ _
    intro hkey
    rw [hkey, hnew] at hrow
    cases hrow
  alone := h.alone

/-- Both hold after a clear action. -/
theorem next_honoured {a : Action} (hsound : AllSound cfg.folding s)
    (h : Honoured cfg.folding s) (henabled : enabled cfg s a = true)
    (hclear : Clear cfg s a) :
    AllSound cfg.folding (next cfg s a) ∧ Honoured cfg.folding (next cfg s a) := by
  cases a with
  | create id body plaintext expiresAt =>
      have hnew := Option.isNone_iff_eq_none.mp henabled
      exact ⟨hsound.create hnew, h.create hnew rfl⟩
  | redeem t now body sourceIp =>
      rw [next]
      split
      · exact ⟨hsound, h⟩
      · next x hload =>
          obtain ⟨hx, hnone, _⟩ := load_sound hload hclear
          refine ⟨hsound.put hx fun hsome => ?_, h.of_eq rfl rfl⟩
          rw [hnone] at hsome
          cases hsome
  | consume t agentId agentToken =>
      obtain ⟨x, hx, _, hfree⟩ := ready_iff.mp henabled
      have hx' := hsound.each t x (Open.has_of_get hx)
      rw [next, hx]
      simp only
      split
      · exact ⟨hsound, h⟩
      · next body sourceIp hrequest =>
          split
          · exact ⟨hsound.close t, h.of_eq rfl rfl⟩
          · next y hy =>
              obtain ⟨hsound', hkey⟩ := consume_sound hx' hrequest hy
              refine ⟨hsound.put hsound' fun _ => ?_, h.of_eq rfl rfl⟩
              rw [hkey]
              exact hfree
  | revoke t key now operator =>
      rw [next]
      split
      · exact ⟨hsound, h⟩
      · next token htoken =>
          split
          · exact ⟨hsound, h⟩
          · refine ⟨hsound.put ⟨⟨token, htoken, .refl, .nothing rfl rfl⟩, ?_⟩ ?_,
              h.of_eq rfl rfl⟩
            · intro body sourceIp hredeem
              cases hredeem
            · intro hsome
              cases hsome
  | write t =>
      obtain ⟨x, hx, hstage, hfree⟩ := ready_iff.mp henabled
      have hx' := hsound.each t x (Open.has_of_get hx)
      have hnothing := nothing_of_stage hx' (by rw [hstage]; nofun)
      rw [next, hx]
      simp only
      split
      · next operator token hrequest htoken =>
          refine ⟨hsound.put (write_sound hx' hrequest htoken hnothing.2) ?_,
            h.of_eq rfl rfl⟩
          exact fun _ => hfree
      · exact ⟨hsound, h⟩
  | commit t =>
      rw [next]
      split
      · exact ⟨hsound, h⟩
      · next x hx =>
          rw [enabled, hx, Bool.and_eq_true] at henabled
          obtain ⟨w, hw⟩ := Option.isSome_iff_exists.mp henabled.1
          have hhas := Open.has_of_get hx
          exact ⟨hsound.commit hhas hw, h.commit (hsound.each t x hhas) hw⟩
  | rollback t => exact ⟨hsound.close t, h.of_eq rfl rfl⟩

/-! ## Where agents come from -/

/-- A redemption of the run made the agent: its conditional update ran on a
token that was not revoked, before the expiry by its clock, and it committed
later. -/
def AdmittedIn (cfg : Config) (s : State) (acts : List Action) (a : Agent) :
    Prop :=
  ∃ pre t agentToken post x y token,
    acts = pre ++ .consume t a.id agentToken :: post ∧ .commit t ∈ post ∧
    ((system cfg).run s pre).txns.get t = some x ∧
    (next cfg ((system cfg).run s pre) (.consume t a.id agentToken)).txns.get t =
      some y ∧ y.agent = some a ∧
    ((system cfg).run s pre).tokens x.key = some token ∧
    a.enrolledByTokenId = x.key ∧ a.enrolledAt = x.now ∧
    token.revoked = false ∧ token.revokedAt = none ∧
    ∃ expiry, token.expiresAt = some expiry ∧ x.now < expiry

theorem AdmittedIn.cons {a : Agent} {act : Action} {acts : List Action}
    (h : AdmittedIn cfg (next cfg s act) acts a) :
    AdmittedIn cfg s (act :: acts) a := by
  obtain ⟨pre, t, agentToken, post, x, y, token, rfl, hrest⟩ := h
  exact ⟨act :: pre, t, agentToken, post, x, y, token, rfl, hrest⟩

/-- An agent that is waiting for its commit was waiting before, or was made
just now. -/
theorem agent_next {a : Agent} {act : Action}
    (hy : (next cfg s act).txns.Has t y) (ha : y.agent = some a) :
    (∃ x, s.txns.Has t x ∧ x.agent = some a) ∨
    ∃ agentToken x body sourceIp, act = .consume t a.id agentToken ∧
      s.txns.get t = some x ∧ x.request = .redeem body sourceIp ∧
      consume cfg s x body sourceIp a.id agentToken = .ok y := by
  cases act with
  | create id body plaintext expiresAt => exact .inl ⟨y, hy, ha⟩
  | redeem u now body sourceIp =>
      rw [next] at hy
      split at hy
      · exact .inl ⟨y, hy, ha⟩
      · next x hload =>
          rcases Open.has_put.mp hy with ⟨_, rfl⟩ | ⟨hold, _⟩
          · unfold load at hload
            split at hload
            · cases hload
            · obtain ⟨_, _, hy⟩ := bind_eq_ok.mp hload
              cases hy
              cases ha
          · exact .inl ⟨y, hold, ha⟩
  | consume u agentId agentToken =>
      rw [next] at hy
      split at hy
      · exact .inl ⟨y, hy, ha⟩
      · next x hx =>
          split at hy
          · exact .inl ⟨y, hy, ha⟩
          · next body sourceIp hrequest =>
              split at hy
              · exact .inl ⟨y, (Open.has_close.mp hy).1, ha⟩
              · next z hz =>
                  rcases Open.has_put.mp hy with ⟨rfl, rfl⟩ | ⟨hold, _⟩
                  · right
                    have hid : a.id = agentId := by
                      obtain ⟨token, _, _, rfl⟩ := consume_ok hz
                      cases ha
                      rfl
                    rw [hid]
                    exact ⟨agentToken, x, body, sourceIp, rfl, hx, hrequest, hz⟩
                  · exact .inl ⟨y, hold, ha⟩
  | revoke u key now operator =>
      rw [next] at hy
      split at hy
      · exact .inl ⟨y, hy, ha⟩
      · split at hy
        · exact .inl ⟨y, hy, ha⟩
        · rcases Open.has_put.mp hy with ⟨_, rfl⟩ | ⟨hold, _⟩
          · cases ha
          · exact .inl ⟨y, hold, ha⟩
  | write u =>
      rw [next] at hy
      split at hy
      · exact .inl ⟨y, hy, ha⟩
      · next x hx =>
          split at hy
          · rcases Open.has_put.mp hy with ⟨rfl, rfl⟩ | ⟨hold, _⟩
            · exact .inl ⟨x, Open.has_of_get hx, ha⟩
            · exact .inl ⟨y, hold, ha⟩
          · exact .inl ⟨y, hy, ha⟩
  | commit u =>
      rw [next] at hy
      split at hy
      · exact .inl ⟨y, hy, ha⟩
      · exact .inl ⟨y, (Open.has_close.mp hy).1, ha⟩
  | rollback u => exact .inl ⟨y, (Open.has_close.mp hy).1, ha⟩

/-- An agent that is there now was there, or was committed just now. -/
theorem agents_next {a : Agent} {act : Action}
    (ha : a ∈ (next cfg s act).agents) :
    a ∈ s.agents ∨ ∃ t x, act = .commit t ∧ s.txns.Has t x ∧
      x.agent = some a := by
  cases act with
  | create id body plaintext expiresAt => exact .inl ha
  | redeem t now body sourceIp =>
      left
      rw [next] at ha
      split at ha
      · exact ha
      · exact ha
  | consume t agentId agentToken =>
      left
      rw [next] at ha
      split at ha
      · exact ha
      · split at ha
        · exact ha
        · split at ha
          · exact ha
          · exact ha
  | revoke t key now operator =>
      left
      rw [next] at ha
      split at ha
      · exact ha
      · split at ha
        · exact ha
        · exact ha
  | write t =>
      left
      rw [next] at ha
      split at ha
      · exact ha
      · split at ha
        · exact ha
        · exact ha
  | commit t =>
      rw [next] at ha
      split at ha
      · exact .inl ha
      · next x hx =>
          rcases List.mem_append.mp ha with hnew | hold
          · exact .inr ⟨t, x, rfl, Open.has_of_get hx, Option.mem_toList.mp hnew⟩
          · exact .inl hold
  | rollback t => exact .inl ha

theorem admittedIn_consume {a : Agent} {agentToken : String} {acts : List Action}
    {body : EnrollRequest} {sourceIp : Option String}
    (hx : s.txns.get t = some x) (hrequest : x.request = .redeem body sourceIp)
    (h : consume cfg s x body sourceIp a.id agentToken = .ok y)
    (ha : y.agent = some a) (hcommit : .commit t ∈ acts) :
    AdmittedIn cfg s (.consume t a.id agentToken :: acts) a := by
  have hy : (next cfg s (.consume t a.id agentToken)).txns.get t = some y := by
    rw [next, hx]
    simp only [hrequest, h]
    exact Open.get_put
  obtain ⟨token, htoken, hspendable, rfl⟩ := consume_ok h
  obtain ⟨hrevoked, hrevokedAt, hexpiry, _⟩ := spendable_iff.mp hspendable
  refine ⟨[], t, agentToken, acts, x, _, token, rfl, hcommit, hx, hy, ha,
    htoken, ?_, ?_, hrevoked, hrevokedAt, ?_⟩
  · rw [← Option.some.inj ha]
    rfl
  · rw [← Option.some.inj ha]
    rfl
  · unfold unexpired at hexpiry
    split at hexpiry
    · cases hexpiry
    · next expiry hsome => exact ⟨expiry, hsome, of_decide_eq_true hexpiry⟩

/-- Every agent after a run was there, was waiting to be committed, or was
made in the run. -/
theorem agents_run {acts : List Action} {a : Agent}
    (ha : a ∈ ((system cfg).run s acts).agents) :
    a ∈ s.agents ∨
    (∃ t x, s.txns.Has t x ∧ x.agent = some a ∧ .commit t ∈ acts) ∨
    AdmittedIn cfg s acts a := by
  induction acts generalizing s with
  | nil => exact .inl ha
  | cons act acts ih =>
      rcases ih ha with hthere | ⟨t, y, hy, hagent, hcommit⟩ | hadmitted
      · rcases agents_next hthere with hold | ⟨t, x, rfl, hx, hagent⟩
        · exact .inl hold
        · exact .inr (.inl ⟨t, x, hx, hagent, List.mem_cons_self⟩)
      · rcases agent_next hy hagent with ⟨x, hx, hagent'⟩ |
          ⟨agentToken, x, body, sourceIp, rfl, hx, hrequest, hconsume⟩
        · exact .inr (.inl ⟨t, x, hx, hagent', List.mem_cons_of_mem _ hcommit⟩)
        · exact .inr (.inr
            (admittedIn_consume hx hrequest hconsume hagent hcommit))
      · exact .inr (.inr hadmitted.cons)

/-! ## Refusals -/

/-- The redemption an action ends, and why. -/
def refused (cfg : Config) (s : State) : Action → Option (Nat × Reason)
  | .redeem t now body sourceIp =>
    match load cfg s now body sourceIp with
    | .error reason => some (t, reason)
    | .ok _ => none
  | .consume t agentId agentToken =>
    match s.txns.get t with
    | none => none
    | some x =>
      match x.request with
      | .revoke _ => none
      | .redeem body sourceIp =>
        match consume cfg s x body sourceIp agentId agentToken with
        | .error reason => some (t, reason)
        | .ok _ => none
  | _ => none

/-- A refusal changes no token and no agent, and leaves nothing that could. -/
theorem refused_unchanged {a : Action} {reason : Reason}
    (henabled : enabled cfg s a = true)
    (h : refused cfg s a = some (t, reason)) :
    (next cfg s a).tokens = s.tokens ∧ (next cfg s a).agents = s.agents ∧
      (next cfg s a).txns.get t = none := by
  cases a with
  | redeem u now body sourceIp =>
      rw [enabled, Bool.and_eq_true, Option.isNone_iff_eq_none] at henabled
      rw [refused] at h
      split at h
      · next reason' hload =>
          cases h
          have hnext : next cfg s (.redeem t now body sourceIp) = s := by
            rw [next, hload]
          rw [hnext]
          exact ⟨rfl, rfl, henabled.1⟩
      · cases h
  | consume u agentId agentToken =>
      rw [refused] at h
      split at h
      · cases h
      · next x hx =>
          split at h
          · cases h
          · next body sourceIp hrequest =>
              split at h
              · next reason' hconsume =>
                  cases h
                  have hnext : next cfg s (.consume t agentId agentToken) =
                      { s with txns := s.txns.close t } := by
                    rw [next, hx]
                    simp only [hrequest, hconsume]
                  rw [hnext]
                  exact ⟨rfl, rfl, Open.get_close⟩
              · cases h
  | create id body plaintext expiresAt => cases h
  | revoke u key now operator => cases h
  | write u => cases h
  | commit u => cases h
  | rollback u => cases h

/-! ## Runs -/

/-- In every clear run, with row locks or without: every token counts its
agents and admits them, every new agent was made by a redemption that spent a
live token, and a refusal changes nothing. -/
theorem tokens_admit_while (h : Honoured cfg.folding s) (hidle : s.txns = {})
    {acts : List Action} (hruns : (system cfg).runs s acts = true)
    (hclear : (system cfg).Each (Clear cfg) s acts) :
    Honoured cfg.folding ((system cfg).run s acts) ∧
    (∀ a ∈ ((system cfg).run s acts).agents,
      a ∈ s.agents ∨ AdmittedIn cfg s acts a) ∧
    (∀ act t reason,
      enabled cfg ((system cfg).run s acts) act = true →
      refused cfg ((system cfg).run s acts) act = some (t, reason) →
      (next cfg ((system cfg).run s acts) act).tokens =
        ((system cfg).run s acts).tokens ∧
      (next cfg ((system cfg).run s acts) act).agents =
        ((system cfg).run s acts).agents ∧
      (next cfg ((system cfg).run s acts) act).txns.get t = none) := by
  have hsound : AllSound cfg.folding s := by
    constructor
    · intro t x hx
      rw [hidle] at hx
      exact absurd hx Open.not_has_empty
    · intro t x u y hx
      rw [hidle] at hx
      exact absurd hx Open.not_has_empty
  have hboth : AllSound cfg.folding ((system cfg).run s acts) ∧
      Honoured cfg.folding ((system cfg).run s acts) :=
    System.invariant_run (m := system cfg)
      (I := fun s => AllSound cfg.folding s ∧ Honoured cfg.folding s)
      (fun _ _ hI henabled hclear => next_honoured hI.1 hI.2 henabled hclear)
      ⟨hsound, h⟩ hruns hclear
  refine ⟨hboth.2, fun a ha => ?_, fun _ _ _ => refused_unchanged⟩
  rcases agents_run ha with hold | ⟨t, x, hx, _⟩ | hadmitted
  · exact .inl hold
  · rw [hidle] at hx
    exact absurd hx Open.not_has_empty
  · exact .inr hadmitted

/-- SHA-256 of the two texts that are hashed below. -/
def sampleHash (text : String) : String :=
  if text = "nlenr_a" then
    "f6a0c2d93795c9ac2cfcac6b4ff25cfae2e4dc582e9c1a1c03dc838b7dc00f03"
  else
    "6ab9f1eb8f7d3388f4f9d586f66e99fd54080df2c446f0e58668b09c08a16dd0"

/-- The fingerprint of the one bearer. -/
def sampleFingerprint (_ : String) : String :=
  "239c91d0066a164165ab9a21e7a6f7db49f37d549a4f03fc60fde2289507b406"

def sampleConfig (rowLocks : Bool) : Config where
  folding := asciiFolding
  hashToken := sampleHash
  credentialFingerprint := sampleFingerprint
  rowLocks := rowLocks

/-- One site, and nothing else. -/
def oneSite : State where
  sites id := if id = "s" then some ⟨"Lab", "c"⟩ else none

theorem oneSite_honoured : Honoured asciiFolding oneSite :=
  ⟨fun _ _ htoken => (by cases htoken), fun _ ha => absurd ha List.not_mem_nil⟩

/-- A token for one host, and the enrollment of a host with it. -/
def enrolls (hostnameRestriction hostname : String) : List Action :=
  [.create "t"
      { siteId := "s"
        hostnameRestriction := some hostnameRestriction } "nlenr_a" 10,
    .redeem 0 1
      { enrollmentToken := "nlenr_a"
        hostname := hostname } none,
    .consume 0 "a" "k1", .commit 0]

/-- While the enrollment is under way another one and a revocation have read
the token, which is spent then and revoked. -/
def enrollsAmongOthers : List Action :=
  (enrolls " Web" "wEB").take 2 ++
    [.redeem 1 2
        { enrollmentToken := "nlenr_a"
          hostname := "web" } none,
      .revoke 2 "t" 3 "o", .consume 0 "a" "k1", .commit 0, .write 2, .commit 2]

theorem tokens_admit_while_enrollsAmongOthers :
    ((system (sampleConfig false)).run oneSite enrollsAmongOthers).agents.length
        = 1 ∧
      refused (sampleConfig false)
        ((system (sampleConfig false)).run oneSite enrollsAmongOthers)
        (.consume 1 "b" "k1") = some (1, .concurrentUse) ∧
      Honoured asciiFolding
        ((system (sampleConfig false)).run oneSite enrollsAmongOthers) := by
  refine ⟨by decide +kernel, by decide +kernel, ?_⟩
  have hruns : (system (sampleConfig false)).runs oneSite enrollsAmongOthers =
      true := by decide +kernel
  have hplain : ∀ (s : State) (t : Nat) (now : Int) (body : EnrollRequest),
      (s.select (sampleHash body.enrollmentToken)).map
        (·.2.hostnameRestriction) = some (some "Web") →
      Clear (sampleConfig false) s (.redeem t now body none) := by
    intro s t now body hselect key token hsome _ r hr _
    have hsome' : s.select (sampleHash body.enrollmentToken) =
        some (key, token) := hsome
    rw [hsome', Option.map_some, hr, Option.some_inj, Option.some_inj] at hselect
    rw [hselect]
    decide +kernel
  have hclear : (system (sampleConfig false)).Each (Clear (sampleConfig false))
      oneSite enrollsAmongOthers :=
    ⟨trivial, hplain _ _ _ _ (by decide +kernel),
      hplain _ _ _ _ (by decide +kernel), trivial, trivial, trivial, trivial,
      trivial, trivial⟩
  exact (tokens_admit_while oneSite_honoured rfl hruns hclear).1

/-- The separator U+001F stays at the end of the restriction and of the host
name that is compared, and is cut off the one that is stored. -/
theorem hostname_restriction_missed :
    (system (sampleConfig true)).runs oneSite (enrolls "web\x1f" "web\x1f") =
      true ∧
    ¬ Honoured asciiFolding ((system (sampleConfig true)).run oneSite
      (enrolls "web\x1f" "web\x1f")) := by
  refine ⟨by decide +kernel, fun h => ?_⟩
  have hagent : (((system (sampleConfig true)).run oneSite
      (enrolls "web\x1f" "web\x1f")).agents.map
        fun a => (a.enrolledByTokenId, a.hostname)) = [("t", "web")] := by
    decide +kernel
  have htoken : ((((system (sampleConfig true)).run oneSite
      (enrolls "web\x1f" "web\x1f")).tokens "t").map
        (·.hostnameRestriction)) = some (some "web\x1f") := by
    decide +kernel
  obtain ⟨a, ha, hpair⟩ := List.mem_map.mp
    (hagent ▸ List.mem_singleton_self ("t", "web"))
  obtain ⟨token, hrow, hadmits⟩ := h.admitted a ha
  obtain ⟨hkey, hname⟩ := Prod.mk.inj hpair
  rw [hkey] at hrow
  rw [hrow, Option.map_some, Option.some_inj] at htoken
  have hclaim := hadmits.hostname
  rw [htoken, hname] at hclaim
  exact absurd hclaim (by decide +kernel)

end NodeLink.Proofs.TokenAdmissions
