import Mathlib.Data.Rat.Floor
import Mathlib.Tactic.Linarith
import QuantaSwap.Maker.Statements

/-!
# The configured windows and the signer's

`loadConfig` takes any positive numbers for the two lock windows. A selection fixes both timeouts
from them, and the signer measures the timeouts again at its own clock, which is later.
-/

set_option autoImplicit false
set_option linter.unusedSectionVars false

open Lib Lib.Checks Lib.Program QuantaSwap.Htlc QuantaSwap.Htlc.V3

namespace QuantaSwap.Maker.Daemon

/-! ## The configuration -/

/-- The variables that are set and not empty, as `Number` reads them; `none` is no finite number. -/
abbrev Variables := String → Option (Option ℚ)

def envInt (env : Variables) (name : String) (fallback : ℚ) : Except String Int :=
  match (env name).getD (some fallback) with
  | none => .error (name ++ " must be a positive number")
  | some v => if v ≤ 0 then .error (name ++ " must be a positive number") else .ok ⌊v⌋

def DEFAULT_ORDER_LIFETIME_S : ℚ := 5 * 60

def envLifetime (env : Variables) : Except String Int :=
  match (env "MM_ORDER_LIFETIME_S").getD (some DEFAULT_ORDER_LIFETIME_S) with
  | none => .error "MM_ORDER_LIFETIME_S must be an integer between 180 and 1800"
  | some v =>
    if v.den ≠ 1 ∨ v < 180 ∨ 1800 < v then
      .error "MM_ORDER_LIFETIME_S must be an integer between 180 and 1800"
    else .ok v.num

structure Windows where
  orderLifetimeS : Int
  initiatorWindowS : Int
  responderWindowS : Int
  deriving DecidableEq, Repr

/-- The windows of `loadConfig`. -/
def loadWindows (env : Variables) : Except String Windows := do
  let orderLifetimeS ← envLifetime env
  let initiatorWindowS ← envInt env "MM_INITIATOR_WINDOW_S" 7200
  let responderWindowS ← envInt env "MM_RESPONDER_WINDOW_S" 3600
  return { orderLifetimeS, initiatorWindowS, responderWindowS }

theorem envInt_eq_ok {env : Variables} {name : String} {fallback : ℚ} {n : Int} :
    envInt env name fallback = .ok n ↔ ∃ v, (env name).getD (some fallback) = some v ∧ 0 < v ∧
    ⌊v⌋ = n := by
  unfold envInt
  cases (env name).getD (some fallback) with
  | none => simp
  | some v =>
    dsimp only
    split
    · rename_i hle
      constructor
      · rintro ⟨⟩
      · rintro ⟨_, ⟨⟩, hpos, -⟩
        exact absurd hpos (not_lt.mpr hle)
    · rename_i hpos
      rw [not_le] at hpos
      simp [hpos]

theorem envLifetime_eq_ok {env : Variables} {n : Int} :
    envLifetime env = .ok n ↔
      (env "MM_ORDER_LIFETIME_S").getD (some DEFAULT_ORDER_LIFETIME_S) = some (n : ℚ) ∧ 180 ≤ n ∧
      n ≤ 1800 := by
  unfold envLifetime
  cases (env "MM_ORDER_LIFETIME_S").getD (some DEFAULT_ORDER_LIFETIME_S) with
  | none => simp
  | some v =>
    dsimp only
    constructor
    · intro h
      split at h
      · cases h
      · rename_i hv
        simp only [not_or, not_lt, ne_eq, not_not] at hv
        cases h
        have heq : (v.num : ℚ) = v := Rat.coe_int_num_of_den_eq_one hv.1
        refine ⟨by rw [heq], ?_, ?_⟩
        · exact_mod_cast heq ▸ hv.2.1
        · exact_mod_cast heq ▸ hv.2.2
    · rintro ⟨⟨⟩, hlo, hhi⟩
      have hlo' : ¬(n : ℚ) < 180 := not_lt.mpr (by exact_mod_cast hlo)
      have hhi' : ¬1800 < (n : ℚ) := not_lt.mpr (by exact_mod_cast hhi)
      simp [hlo', hhi']

theorem loadWindows_eq_ok {x : Windows} :
    (∃ env, loadWindows env = .ok x) ↔
      180 ≤ x.orderLifetimeS ∧ x.orderLifetimeS ≤ 1800 ∧ 0 ≤ x.initiatorWindowS ∧
      0 ≤ x.responderWindowS := by
  constructor
  · rintro ⟨env, h⟩
    unfold loadWindows at h
    simp only [bind_eq_ok, pure_eq_ok, envLifetime_eq_ok, envInt_eq_ok] at h
    obtain ⟨_, ⟨-, hlo, hhi⟩, _, ⟨v, -, hv, rfl⟩, _, ⟨u, -, hu, rfl⟩, rfl⟩ := h
    exact ⟨hlo, hhi, Int.floor_nonneg.mpr hv.le, Int.floor_nonneg.mpr hu.le⟩
  · rintro ⟨hlo, hhi, hi, hr⟩
    have hhalf : ∀ n : Int, 0 ≤ n → (0 : ℚ) < n + 1 / 2 ∧ ⌊(n : ℚ) + 1 / 2⌋ = n := by
      intro n hn
      have hn' : (0 : ℚ) ≤ n := by exact_mod_cast hn
      refine ⟨by linarith, ?_⟩
      rw [Int.floor_eq_iff]
      constructor <;> linarith
    refine ⟨fun name =>
      if name = "MM_ORDER_LIFETIME_S" then some (some x.orderLifetimeS)
      else if name = "MM_INITIATOR_WINDOW_S" then some (some (x.initiatorWindowS + 1 / 2))
      else some (some (x.responderWindowS + 1 / 2)), ?_⟩
    unfold loadWindows
    simp only [bind_eq_ok, pure_eq_ok, envLifetime_eq_ok, envInt_eq_ok]
    refine ⟨x.orderLifetimeS, ⟨rfl, hlo, hhi⟩, x.initiatorWindowS,
      ⟨_, rfl, (hhalf _ hi).1, (hhalf _ hi).2⟩,
      x.responderWindowS, ⟨_, rfl, (hhalf _ hr).1, (hhalf _ hr).2⟩, rfl⟩

section

variable {A B : Type} [DecidableEq A] [DecidableEq B] [Zero A] [Zero B] {cfg : Config A B}
  {w w' w₀ : World A B} {id : String} {m m' : ManagedOrder A B} {p p' : ManagedProtocolV1 A B}
  {s : SelectedFillIntentV1 A B}

/-! ## What a pass does with a selection -/

inductive FillPlan (A B : Type)
  | wait
  /-- Throws. -/
  | short
  /-- The listing is cancelled and dropped. -/
  | cancel
  | sign (fill : FillV1Body A B) (respondBy : Int)
  /-- Throws. -/
  | lost

/-- What `advance` makes of a selection when the clock reads `issuedAt`. -/
def fillPlan (cfg : Config A B) (m : ManagedOrder A B) (p : ManagedProtocolV1 A B)
    (selected : SelectedFillIntentV1 A B) (issuedAt : Int) : FillPlan A B :=
  let responseWindowS := min FILL_RESPONSE_TARGET_S (cfg.responderWindowS - 601)
  let respondBy := min (issuedAt + responseWindowS) p.orderAuth.expiresAt
  if selected.auth.expiresAt ≤ issuedAt then .wait
  else if responseWindowS < 60 then .short
  else if respondBy - issuedAt < 60 then .cancel
  else
    match m.hashlock, m.initiatorTimeout, m.responderTimeout with
    | some hashlock, some t1, some t2 => .sign (fillBody p selected hashlock t1 t2) respondBy
    | _, _, _ => .lost

/-- A pass goes by its plan. -/
theorem signFill_eq (selected : SelectedFillIntentV1 A B) (view : Option (OrderView A B)) :
    signFill cfg m p selected view = (do
      let issuedAt ← nowS
      match fillPlan cfg m p selected issuedAt with
      | .wait => return view
      | .short => throw (.error "responder window is too short for a portable fill")
      | .cancel => do
        let cancelled ← cancelManaged cfg m
        attempt (.delete m.id .nearExpiry)
        return some cancelled
      | .sign fill respondBy => do
        let proof ← attempt (.signFill fill p.signedOrder selected issuedAt respondBy)
        attempt (.upsert (m.withFill proof))
        let filled ← publishFill cfg (m.withFill proof)
        return some filled
      | .lost => throw (.error "order lost its persisted fill terms")) := by
  unfold signFill
  congr 1
  funext issuedAt
  unfold fillPlan
  dsimp only
  split
  · rfl
  · split
    · rfl
    · split
      · rfl
      · cases m.hashlock with
        | none => rfl
        | some hashlock =>
          cases m.initiatorTimeout with
          | none => rfl
          | some t1 => cases m.responderTimeout <;> rfl

/-- The pass throws nowhere before the fill is published: what it asks the signer for is signed. -/
def Settles (cfg : Config A B) (p : ManagedProtocolV1 A B) (selected : SelectedFillIntentV1 A B)
    (issuedAt : Int) : FillPlan A B → Prop
  | .wait | .cancel => True
  | .short | .lost => False
  | .sign fill respondBy => ∀ nonce signature, ∃ proof,
    signFillV1 cfg.codec cfg.key fill p.signedOrder selected issuedAt respondBy nonce signature =
      .ok proof

/-! ## What a record says of its selection -/

/-- A listing as the maker signed it. -/
structure ListedBy (cfg : Config A B) (p : ManagedProtocolV1 A B) : Prop where
  signed : ∃ asset direction q issuedAt nonce signature,
    signOrderV1 cfg.codec cfg.key (listing cfg asset direction q) q.makerToken issuedAt
      (issuedAt + cfg.orderLifetimeS) nonce signature = .ok p.signedOrder
  verified : cfg.codec.verifyOrder p.order.makerQrlAccount p.order p.orderAuth = true
  digest : p.orderDigest = cfg.codec.computeOrderDigest p.order p.orderAuth

/-- The terms that a selection left in the record. -/
structure Terms (cfg : Config A B) (w : World A B) (m : ManagedOrder A B)
    (p : ManagedProtocolV1 A B)
    (s : SelectedFillIntentV1 A B) (selectedAt : Int) (secret : B) : Prop where
  announcedAt : m.announcedAt = some selectedAt
  hashlock : m.hashlock = some (cfg.sha256 secret)
  initiatorTimeout : m.initiatorTimeout = some (selectedAt + cfg.initiatorWindowS)
  responderTimeout : m.responderTimeout = some (selectedAt + cfg.responderWindowS)
  clock : Relation.ReflTransGen cfg.ticks selectedAt w.clock
  taken : ∃ now, Relation.ReflTransGen cfg.ticks now selectedAt ∧ s.auth.issuedAt ≤ now ∧
    verifyFillIntentV1 cfg.codec s.intent s.auth p.orderDigest now p.orderAuth.issuedAt
      p.orderAuth.expiresAt = true

def Portable (cfg : Config A B) (w : World A B) (m : ManagedOrder A B) : Prop :=
  ∀ p, m.protocol = some p → ListedBy cfg p ∧ ∀ s, p.selectedIntent = some s → ∃ selectedAt secret,
    Terms cfg w m p s selectedAt secret

theorem ListedBy.same (h : ListedBy cfg p) (hsame : SameListing p p') : ListedBy cfg p' := by
  obtain ⟨⟨asset, direction, q, issuedAt, nonce, signature, hsign⟩, hverified, hdigest⟩ := h
  have hsigned : p'.signedOrder = p.signedOrder := by
    unfold ManagedProtocolV1.signedOrder
    rw [hsame.order, hsame.auth]
  refine ⟨⟨asset, direction, q, issuedAt, nonce, signature, hsigned ▸ hsign⟩, ?_, ?_⟩
  · rw [hsame.order, hsame.auth]
    exact hverified
  · rw [hsame.digest, hsame.order, hsame.auth]
    exact hdigest

theorem Terms.same {selectedAt : Int} {secret : B} (h : Terms cfg w m p s selectedAt secret)
    (hsame : SameListing p p') (ha : m'.announcedAt = m.announcedAt) (hk : m'.hashlock = m.hashlock)
    (h1 : m'.initiatorTimeout = m.initiatorTimeout)
    (h2 : m'.responderTimeout = m.responderTimeout) :
    Terms cfg w m' p' s selectedAt secret := by
  refine ⟨ha.trans h.announcedAt, hk.trans h.hashlock, h1.trans h.initiatorTimeout,
    h2.trans h.responderTimeout,
    h.clock, ?_⟩
  rw [hsame.digest, hsame.auth]
  exact h.taken

theorem Portable.later (h : Portable cfg w m)
    (hclock : Relation.ReflTransGen cfg.ticks w.clock w'.clock) :
    Portable cfg w' m := by
  intro p hp
  obtain ⟨hlisted, hterms⟩ := h p hp
  refine ⟨hlisted, fun s hs => ?_⟩
  obtain ⟨selectedAt, secret, ht⟩ := hterms s hs
  exact ⟨selectedAt, secret, { ht with clock := ht.clock.trans hclock }⟩

theorem Portable.frame (h : Portable cfg w m)
    (hprot : ∀ p', m'.protocol = some p' → ∃ p, m.protocol = some p ∧ SameListing p p' ∧
      p'.selectedIntent = p.selectedIntent)
    (ha : m'.announcedAt = m.announcedAt) (hk : m'.hashlock = m.hashlock)
    (h1 : m'.initiatorTimeout = m.initiatorTimeout)
    (h2 : m'.responderTimeout = m.responderTimeout) :
    Portable cfg w m' := by
  intro p' hp'
  obtain ⟨p, hp, hsame, hsel⟩ := hprot p' hp'
  obtain ⟨hlisted, hterms⟩ := h p hp
  refine ⟨hlisted.same hsame, fun s hs => ?_⟩
  obtain ⟨selectedAt, secret, ht⟩ := hterms s (hsel ▸ hs)
  exact ⟨selectedAt, secret, ht.same hsame ha hk h1 h2⟩

theorem Portable.marked (h : Portable cfg w m) (hprot : m'.protocol = m.protocol)
    (ha : m'.announcedAt = m.announcedAt) (hk : m'.hashlock = m.hashlock)
    (h1 : m'.initiatorTimeout = m.initiatorTimeout)
    (h2 : m'.responderTimeout = m.responderTimeout) :
    Portable cfg w m' :=
  h.frame (fun p' hp' => ⟨p', hprot ▸ hp', ⟨rfl, rfl, rfl⟩, rfl⟩) ha hk h1 h2

theorem Portable.change (h : Portable cfg w m) (hc : Change cfg w m m') : Portable cfg w m' := by
  have hnone : m'.protocol = none → Portable cfg w m' := by
    intro hnone p hp
    rw [hnone] at hp
    cases hp
  cases hc with
  | again => exact h
  | acknowledged released hf =>
    refine h.frame (fun p' hp' => ?_) rfl rfl rfl rfl
    obtain ⟨p, hp, rfl⟩ := Option.map_eq_some_iff.mp hp'
    exact ⟨p, hp, ⟨rfl, rfl, rfl⟩, rfl⟩
  | cancelled hp hf hcancel hm hs =>
    refine h.frame (fun p' hp' => ?_) rfl rfl rfl rfl
    obtain ⟨p, hp, rfl⟩ := Option.map_eq_some_iff.mp hp'
    exact ⟨p, hp, ⟨rfl, rfl, rfl⟩, rfl⟩
  | filled hp hs hf hcancel ht =>
    refine h.frame (fun p' hp' => ?_) rfl rfl rfl rfl
    obtain ⟨p, hp, rfl⟩ := Option.map_eq_some_iff.mp hp'
    exact ⟨p, hp, ⟨rfl, rfl, rfl⟩, rfl⟩
  | unselected hs hf hcancel =>
    intro p' hp'
    obtain ⟨p, hp, rfl⟩ := Option.map_eq_some_iff.mp hp'
    exact ⟨(h p hp).1.same ⟨rfl, rfl, rfl⟩, (fun s hs => by cases hs)⟩
  | @selecting q s secret selectedAt hq hs hf hcancel hsecret ht =>
    intro p' hp'
    obtain ⟨p, hp, rfl⟩ := Option.map_eq_some_iff.mp hp'
    obtain rfl : q = p := Option.some.inj (hq.symm.trans hp)
    refine ⟨(h q hp).1.same ⟨rfl, rfl, rfl⟩, fun s' hs' => ?_⟩
    cases hs'
    obtain ⟨-, now, hnow, hclock, hissued, hverified⟩ := ht
    exact ⟨selectedAt, secret, rfl, rfl, rfl, rfl, hclock, now, hnow, hissued, hverified⟩
  | secret hp hk hsecret => exact hnone hp
  | announced hp takerEth takerQrl t1 t2 announcedAt h1 h2 ha => exact hnone hp
  | lockSent | claimSent | sponsorSent | refundSent | withdrawSent | pushSent | withdrawRejected |
    pushRejected =>
    exact h.marked rfl rfl rfl rfl rfl

theorem New.portable (hn : New cfg w m) : Portable cfg w m := by
  obtain ⟨asset, direction, q, issuedAt, createdAt, nonce, signature, signed, -, -, -, hsign,
    hverify, rfl⟩ := hn.pending
  rintro p ⟨⟩
  refine ⟨⟨⟨asset, direction, q, issuedAt, nonce, signature, hsign⟩, hverify, rfl⟩, ?_⟩
  rintro s ⟨⟩

/-! ## In every run -/

def AllPortable (cfg : Config A B) (w : World A B) : Prop :=
  ∀ id m, w.disk.get id = some m → Portable cfg w m

theorem AllPortable.later (h : AllPortable cfg w)
    (hclock : Relation.ReflTransGen cfg.ticks w.clock w'.clock)
    (hdisk : ∀ id n, w'.disk.get id = some n → w.disk.get id = some n) : AllPortable cfg w' :=
  fun id n hn => (h id n (hdisk id n hn)).later hclock

theorem AllPortable.wrote (h : AllPortable cfg w) {f : StateFile A B}
    {d : String → Option (ManagedOrder A B)}
    {r : Except Err Unit} (hw : Wrote w f d r w') (hd : ∀ id n, d id = some n → Portable cfg w n) :
    AllPortable cfg w' := by
  intro id n hn
  refine Portable.later ?_ hw.history.ticks
  obtain heq | heq := hw.disk id
  · exact h id n (heq ▸ hn)
  · exact hd id n (heq ▸ hn)

theorem AllPortable.operate {β : Type} {r : Req A B β} {b : β} (hs : Sound cfg w)
    (h : AllPortable cfg w)
    (hg : Guard cfg w r) (ho : operate cfg w r b w') : AllPortable cfg w' := by
  cases r with
  | now =>
    obtain ⟨hticks, rfl⟩ := ho
    exact h.later (.single hticks) fun _ _ hn => hn
  | upsert m =>
    refine h.wrote (upsert_wrote hs.files ho) fun id n hn => ?_
    split at hn
    · cases hn
      obtain hnew | ⟨m₀, hm₀, hchange⟩ := hg
      · exact hnew.portable
      · exact (h _ m₀ hm₀).change hchange
    · exact h id n hn
  | delete id why =>
    refine h.wrote (delete_wrote hs.files ho) fun id' n hn => ?_
    split at hn
    · cases hn
    · exact h id' n hn
  | recordStrandedCredit e =>
    obtain ⟨rfl, -⟩ | ⟨-, rfl, -⟩ | ⟨hw, -⟩ := record_cases hs.files ho
    · exact h.later .refl fun _ _ hn => hn
    · exact h.later .refl fun _ _ hn => hn
    · exact h.wrote hw h
  | clearStrandedCredit key =>
    change ite _ _ _ at ho
    split at ho
    · exact h.wrote (clear_wrote hs.files hg ho) h
    · obtain ⟨-, rfl⟩ := ho
      exact h
  | observe id q =>
    obtain ⟨v, shown, henv, -, rfl⟩ := ho
    obtain ⟨is, rfl⟩ := Env.run henv
    exact h.later .refl fun _ _ hn => hn
  | mid | canAttempt | heartbeat | quote | send =>
    obtain rfl : w' = _ := ho
    exact h.later .refl fun _ _ hn => hn
  | all | get | signFill | signCancel | signOrder | strandedCredits | retainedAdmissionCount |
    createSigned | intents
  | cancel | allowance | preflight | post | announceHashlock =>
    obtain ⟨-, rfl⟩ := ho
    exact h.later .refl fun _ _ hn => hn
  | creditOf l token account =>
    obtain ⟨-, rfl⟩ := ho
    obtain ⟨hh, -, hdisk, -⟩ := balanceRead_same w (l, token, account) b
    exact h.later hh.ticks fun id n hn => hdisk ▸ hn
  | newSecret id =>
    obtain ⟨-, -, -, rfl⟩ := ho
    exact h.later .refl fun _ _ hn => hn

theorem reaches_portable {q : Option (Program (Req A B) Unit)} (h₀ : Start cfg w₀)
    (h : Reaches cfg w₀ q w) :
    AllPortable cfg w := by
  refine process_invariant (I := Sound cfg) (J := AllPortable cfg) (c := (q, w))
    (fun hrun => reaches_guard h₀ hrun)
      (fun _ _ _ _ _ hs hj hg ho => hj.operate hs hg ho) ?_ ?_ ?_ h
  · intro s s' henv hj
    obtain ⟨i, -, rfl⟩ := henv
    exact hj.later .refl fun _ _ hn => hn
  · intro s s' hcrash hj
    obtain ⟨t, hticks, rfl⟩ := hcrash
    exact hj.later (.single hticks) fun _ _ hn => hn
  · intro id m hm p hp
    rw [(h₀.untouched m (StateFile.get_mem hm)).1] at hp
    cases hp

/-! ## When the signer signs -/

/-- The windows, `delay` seconds after they were fixed and `left` seconds before the listing
expires. -/
structure WindowsFit (cfg : Config A B) (delay left : Int) : Prop where
  /-- At least twice the responder's window, as the signer measures both. -/
  double : 2 * cfg.responderWindowS ≤ cfg.initiatorWindowS + delay
  responder : cfg.responderWindowS ≤ 7200 + delay
  initiator : cfg.initiatorWindowS ≤ 14400 + delay
  /-- More than ten minutes from the end of the response to the responder's deadline. -/
  runway : 600 + min (min 300 (cfg.responderWindowS - 601)) left < cfg.responderWindowS - delay

theorem verifyFillIntentV1_later {codec : Codec A B} {digest : B} {now later t₁ t₂ : Int}
    (h : verifyFillIntentV1 codec s.intent s.auth digest now t₁ t₂ = true) (hle : now ≤ later)
    (hlive : later < s.auth.expiresAt) (hsafe : later ≤ MAX_SAFE_INTEGER - MAX_CLOCK_SKEW_S) :
    verifyFillIntentV1 codec s.intent s.auth digest later t₁ t₂ = true := by
  unfold verifyFillIntentV1 protocolAuthIsCanonical at h ⊢
  simp only [Bool.and_eq_true, decide_eq_true_eq] at h ⊢
  obtain ⟨⟨⟨⟨⟨⟨⟨⟨⟨h0, -⟩, ⟨⟨⟨⟨⟨⟨hscheme, hi⟩, he⟩, hlt⟩, hlife⟩, hskew⟩, -⟩⟩, hdigest⟩, hs1⟩,
    hfrom⟩, hs2⟩, hto⟩, hord⟩, hv⟩ := h
  refine ⟨⟨⟨⟨⟨⟨⟨⟨⟨?_, hsafe⟩, ⟨⟨⟨⟨⟨⟨hscheme, hi⟩, he⟩, hlt⟩, hlife⟩, ?_⟩, hlive⟩⟩, hdigest⟩, hs1⟩,
    hfrom⟩, hs2⟩, hto⟩, hord⟩, hv⟩
  · omega
  · omega

theorem ListedBy.order (h : ListedBy cfg p) : Normal p.order ∧ p.order.visibility = .pub ∧
    p.order.makerQrlAccount = cfg.key.address ∧ p.orderAuth.scheme = SCHEME ∧
    p.orderAuth.publicKey = cfg.key.publicKey ∧
    p.orderAuth.descriptor = OFFICIAL_DESCRIPTOR ∧ p.order.prelock = none ∧
    safeUint p.orderAuth.expiresAt = true := by
  obtain ⟨asset, direction, q, issuedAt, nonce, signature, hsign⟩ := h.signed
  have hs := signOrderV1_signed hsign
  have hbody : p.order = listing cfg asset direction q := hs.body
  refine ⟨hbody ▸ hs.normal, hbody ▸ hs.visibility, hbody ▸ hs.account, hs.scheme, hs.publicKey,
    hs.descriptor, ?_, ?_⟩
  · rw [hbody]
    rfl
  · have hexpires : p.orderAuth.expiresAt = issuedAt + cfg.orderLifetimeS := hs.expires
    rw [hexpires]
    exact hs.safe.2

/-- What must hold besides the windows: the book gave the proposal with its digest, the hashlock is
not zero, and the numbers are safe integers. -/
structure Proper (cfg : Config A B) (s : SelectedFillIntentV1 A B) (hashlock : B)
    (selectedAt issuedAt : Int) : Prop where
  digest : s.intentDigest = cfg.codec.computeFillIntentDigest s.intent s.auth
  hashlock : hashlock ≠ 0
  timeout : selectedAt + cfg.initiatorWindowS ≤ MAX_SAFE_INTEGER
  clock : issuedAt ≤ MAX_SAFE_INTEGER - MAX_CLOCK_SKEW_S

theorem signFillV1_iff {selectedAt issuedAt : Int} {secret : B} (hlisted : ListedBy cfg p)
    (ht : Terms cfg w m p s selectedAt secret) (hclock : ∀ s t, cfg.ticks s t → s ≤ t)
    (hle : selectedAt ≤ issuedAt)
    (hlive : issuedAt < s.auth.expiresAt) (hresponder : 661 ≤ cfg.responderWindowS)
    (hleft : 60 ≤ p.orderAuth.expiresAt - issuedAt) (nonce : B) (signature : String) :
    (∃ proof, signFillV1 cfg.codec cfg.key
        (fillBody p s (cfg.sha256 secret) (selectedAt + cfg.initiatorWindowS)
          (selectedAt + cfg.responderWindowS))
        p.signedOrder s issuedAt
        (min (issuedAt + min FILL_RESPONSE_TARGET_S (cfg.responderWindowS - 601))
          p.orderAuth.expiresAt) nonce signature =
          .ok proof) ↔
      WindowsFit cfg (issuedAt - selectedAt) (p.orderAuth.expiresAt - issuedAt) ∧
        Proper cfg s (cfg.sha256 secret) selectedAt issuedAt := by
  obtain ⟨hnormal, hpub, haccount, hscheme, hkey, hdescriptor, hprelock, hexpires⟩ := hlisted.order
  obtain ⟨now, hnow, hissued, hverified⟩ := ht.taken
  have hnow_le : now ≤ issuedAt := (ticks_le hclock hnow).trans hle
  have hv := hverified
  unfold verifyFillIntentV1 at hv
  simp only [Bool.and_eq_true, decide_eq_true_eq] at hv
  have hnow_nonneg : 0 ≤ now := hv.1.1.1.1.1.1.1.1.1
  have hdigest := hlisted.digest
  unfold safeUint at hexpires
  simp only [Bool.and_eq_true, decide_eq_true_eq] at hexpires
  generalize hmin :
    min (issuedAt + min FILL_RESPONSE_TARGET_S (cfg.responderWindowS - 601)) p.orderAuth.expiresAt =
      respondBy
  unfold FILL_RESPONSE_TARGET_S at hmin
  constructor
  -- Each check that the signer made bounds one of the windows.
  · rintro ⟨proof, hsign⟩
    have hs := signFillV1_signed hsign
    have hverify := hs.verified
    unfold verifyFillIntentV1 at hverify
    simp only [Bool.and_eq_true, decide_eq_true_eq] at hverify
    obtain ⟨-, hordered, hdouble, hmax⟩ := hs.windows
    have hinitiator := hs.listed hprelock
    have hrunway := hs.runway
    have htimeout := hs.timeouts.1
    unfold safeUint at htimeout
    simp only [Bool.and_eq_true, decide_eq_true_eq] at htimeout
    simp only [fillBody] at hordered hdouble hmax hinitiator hrunway htimeout
    unfold MAX_RESPONDER_WINDOW_S at hmax
    unfold MAX_INITIATOR_WINDOW_S at hinitiator
    unfold MIN_RESPONDER_RUNWAY_AFTER_RESPONSE_S at hrunway
    refine ⟨⟨?_, ?_, ?_, ?_⟩, hs.selects, hs.nonzero, htimeout.2, hverify.1.1.1.1.1.1.1.1.2⟩
    · omega
    · omega
    · omega
    · omega
  · rintro ⟨⟨hdouble, hmax, hinitiator, hrunway⟩, hproper⟩
    have hverify := verifyFillIntentV1_later hverified hnow_le hlive hproper.clock
    have htimeout := hproper.timeout
    have hclock' := hproper.clock
    unfold MAX_CLOCK_SKEW_S at hclock'
    unfold MAX_SAFE_INTEGER at htimeout hclock' hexpires
    unfold signFillV1
    simp only [bind_eq_ok, pure_eq_ok, refuse_eq_ok, normalizeOrderBody_eq_ok, exists_and_left,
      exists_const, not_not,
      not_or, not_lt, not_le, ne_eq]
    -- One goal is left for each check of the signer, in its order.
    have hsafe : ∀ n : Int, 0 ≤ n → n ≤ 2 ^ 53 - 1 → safeUint n = true := by
      intro n hlo hhi
      unfold safeUint MAX_SAFE_INTEGER
      rw [decide_eq_true hlo, decide_eq_true hhi]
      rfl
    refine ⟨hsafe _ ?_ ?_, hsafe _ ?_ ?_, _, _, ⟨hnormal, rfl⟩, hsafe _ ?_ ?_, hsafe _ ?_ ?_,
      ⟨?_, ?_⟩, hpub,
      ⟨haccount, hscheme, hkey, hdescriptor, hlisted.verified⟩,
        ⟨hdigest, hproper.digest, rfl, rfl, rfl, rfl, ?_⟩,
      ⟨hlive, ?_⟩, hproper.hashlock, ⟨?_, ?_, ?_⟩, ?_, ?_, ?_, ?_, rfl⟩
    · show 0 ≤ selectedAt + cfg.initiatorWindowS
      omega
    · exact htimeout
    · show 0 ≤ selectedAt + cfg.responderWindowS
      omega
    · show selectedAt + cfg.responderWindowS ≤ 2 ^ 53 - 1
      omega
    · omega
    · omega
    · omega
    · omega
    · unfold MIN_FILL_RESPONSE_S
      omega
    · unfold MAX_FILL_RESPONSE_S
      omega
    · exact hdigest ▸ hverify
    · show respondBy ≤ p.orderAuth.expiresAt
      omega
    · show 0 < selectedAt + cfg.responderWindowS - issuedAt
      omega
    · show selectedAt + cfg.responderWindowS - issuedAt ≤
        selectedAt + cfg.initiatorWindowS - issuedAt
      omega
    · show selectedAt + cfg.responderWindowS - issuedAt ≤
        (selectedAt + cfg.initiatorWindowS - issuedAt) / 2
      omega
    · show selectedAt + cfg.responderWindowS - issuedAt ≤ MAX_RESPONDER_WINDOW_S
      unfold MAX_RESPONDER_WINDOW_S
      omega
    · rintro ⟨-, hlong⟩
      change MAX_INITIATOR_WINDOW_S < selectedAt + cfg.initiatorWindowS - issuedAt at hlong
      unfold MAX_INITIATOR_WINDOW_S at hlong
      omega
    · rw [show p.signedOrder.order.prelock = none from hprelock]
      exact Bool.false_ne_true
    · show MIN_RESPONDER_RUNWAY_AFTER_RESPONSE_S < selectedAt + cfg.responderWindowS - respondBy
      unfold MIN_RESPONDER_RUNWAY_AFTER_RESPONSE_S
      omega

theorem settles_iff {selectedAt issuedAt : Int} {secret : B} (hlisted : ListedBy cfg p)
    (ht : Terms cfg w m p s selectedAt secret) (hclock : ∀ s t, cfg.ticks s t → s ≤ t)
    (hle : selectedAt ≤ issuedAt)
    (hlive : issuedAt < s.auth.expiresAt) :
    Settles cfg p s issuedAt (fillPlan cfg m p s issuedAt) ↔ 661 ≤ cfg.responderWindowS ∧
      (60 ≤ p.orderAuth.expiresAt - issuedAt →
        WindowsFit cfg (issuedAt - selectedAt) (p.orderAuth.expiresAt - issuedAt) ∧
          Proper cfg s (cfg.sha256 secret) selectedAt issuedAt) := by
  have hwait : ¬s.auth.expiresAt ≤ issuedAt := not_le.mpr hlive
  have htarget : FILL_RESPONSE_TARGET_S = 300 := rfl
  unfold fillPlan
  dsimp only
  rw [if_neg hwait]
  by_cases hshort : min FILL_RESPONSE_TARGET_S (cfg.responderWindowS - 601) < 60
  · rw [if_pos hshort]
    constructor
    · exact False.elim
    · rintro ⟨hresponder, -⟩
      omega
  · rw [if_neg hshort]
    have hresponder : 661 ≤ cfg.responderWindowS := by omega
    -- The listing ends too soon for a fill, and the order is cancelled.
    by_cases hnear :
      min (issuedAt + min FILL_RESPONSE_TARGET_S (cfg.responderWindowS - 601))
        p.orderAuth.expiresAt -
        issuedAt < 60
    · rw [if_pos hnear]
      constructor
      · intro _
        refine ⟨hresponder, fun hleft => ?_⟩
        omega
      · intro _
        trivial
    · rw [if_neg hnear, ht.hashlock, ht.initiatorTimeout, ht.responderTimeout]
      dsimp only
      have hleft : 60 ≤ p.orderAuth.expiresAt - issuedAt := by omega
      have hsigns := signFillV1_iff hlisted ht hclock hle hlive hresponder hleft
      constructor
      · intro h
        exact ⟨hresponder, fun _ => (hsigns 0 "").mp (h 0 "")⟩
      · rintro ⟨-, h⟩ nonce signature
        exact (hsigns nonce signature).mpr (h hleft)

theorem windowsFit_iff (cfg : Config A B) :
    (∀ delay left, 0 ≤ delay → delay < 120 → 60 ≤ left → WindowsFit cfg delay left) ↔
      1020 ≤ cfg.responderWindowS ∧ cfg.responderWindowS ≤ 7200 ∧
      2 * cfg.responderWindowS ≤ cfg.initiatorWindowS ∧
        cfg.initiatorWindowS ≤ 14400 := by
  constructor
  · intro h
    have hfirst := h 0 300 le_rfl (by decide) (by decide)
    have hlast := h 119 300 (by decide) (by decide) (by decide)
    have hdouble := hfirst.double
    have hresponder := hfirst.responder
    have hinitiator := hfirst.initiator
    have hrunway := hlast.runway
    refine ⟨?_, ?_, ?_, ?_⟩ <;> omega
  · rintro ⟨hlong, hresponder, hdouble, hinitiator⟩ delay left hdelay hlate hleft
    constructor <;> omega

/-- A selection that a run has left on disk, when the clock reads `issuedAt` and it is still live:
it is signed, or its listing is cancelled, or the pass throws. -/
theorem selection_settles_iff {q : Option (Program (Req A B) Unit)} (h₀ : Start cfg w₀)
    (hclock : ∀ s t, cfg.ticks s t → s ≤ t) (h : Reaches cfg w₀ q w) (hm : w.disk.get id = some m)
    (hp : m.protocol = some p) (hs : p.selectedIntent = some s) {issuedAt : Int}
    (hlater : Relation.ReflTransGen cfg.ticks w.clock issuedAt)
    (hlive : issuedAt < s.auth.expiresAt) :
    ∃ selectedAt hashlock, m.announcedAt = some selectedAt ∧ m.hashlock = some hashlock ∧
      selectedAt ≤ issuedAt ∧ issuedAt < selectedAt + 120 ∧
      (Settles cfg p s issuedAt (fillPlan cfg m p s issuedAt) ↔ 661 ≤ cfg.responderWindowS ∧
        (60 ≤ p.orderAuth.expiresAt - issuedAt →
          WindowsFit cfg (issuedAt - selectedAt) (p.orderAuth.expiresAt - issuedAt) ∧
            Proper cfg s hashlock selectedAt issuedAt)) := by
  obtain ⟨hlisted, hterms⟩ := reaches_portable h₀ h id m hm p hp
  obtain ⟨selectedAt, secret, ht⟩ := hterms s hs
  have hle : selectedAt ≤ issuedAt := ticks_le hclock (ht.clock.trans hlater)
  refine ⟨selectedAt, _, ht.announcedAt, ht.hashlock, hle, ?_,
    settles_iff hlisted ht hclock hle hlive⟩
  obtain ⟨now, hnow, hissued, hverified⟩ := ht.taken
  have hselected := ticks_le hclock hnow
  unfold verifyFillIntentV1 protocolAuthIsCanonical MAX_FILL_INTENT_LIFETIME_S at hverified
  simp only [Bool.and_eq_true, decide_eq_true_eq] at hverified
  have hlifetime := hverified.1.1.1.1.1.1.1.2.1.1.2
  omega

end

/-! ## Fifteen minutes for the responder -/

def Config.windows {A B : Type} (cfg : Config A B) : Windows :=
  ⟨cfg.orderLifetimeS, cfg.initiatorWindowS, cfg.responderWindowS⟩

/-- The desk with the responder's window set to fifteen minutes. -/
def hasty : Config (Fin 4) (Fin 4) :=
  { desk with orderLifetimeS := 600, initiatorWindowS := 7200, responderWindowS := 900 }

theorem hasty_ticks (s t : Int) (h : s ≤ t) : hasty.ticks s t := h

def hastyRow : OrderView (Fin 4) (Fin 4) :=
  { listedRow with makerAuth := some { listedAuth with expiresAt := 1600 } }

/-- A tick in which the listing is open, and there is one proposal. -/
def hastyTick (time : Int) : Script (Fin 4) (Fin 4) := { proposes time with row := some hastyRow }

theorem vacant_hasty : Start hasty vacant :=
  ⟨rfl, rfl, ⟨1000, _, _, _, _, _, _, [], rfl⟩, List.nodup_nil, rfl, (fun m hm => by cases hm),
    ⟨rfl, rfl, rfl, rfl, rfl⟩,
    rfl, rfl⟩

/-- The signer refuses what the plan asks it for. -/
def refuses (p : ManagedProtocolV1 (Fin 4) (Fin 4)) (s : SelectedFillIntentV1 (Fin 4) (Fin 4))
    (issuedAt : Int) :
    FillPlan (Fin 4) (Fin 4) → Bool
  | .sign fill respondBy =>
    !(signFillV1 hasty.codec hasty.key fill p.signedOrder s issuedAt respondBy 3 "").toOption.isSome
  | _ => false

/-- A selection on disk that the signer refuses one second later. -/
def stuck (w : World (Fin 4) (Fin 4)) : Bool :=
  decide (w.clock = 1100) && (w.disk.get "order").any fun m => m.protocol.any fun p =>
    p.selectedIntent.any fun s =>
    decide (1101 < s.auth.expiresAt) && refuses p s 1101 (fillPlan hasty m p s 1101)

theorem reaches_stuck : ∃ q w m p s, Reaches hasty vacant (some q) w ∧ w.clock = 1100 ∧
    w.disk.get "order" = some m ∧ m.protocol = some p ∧ p.selectedIntent = some s ∧
    1101 < s.auth.expiresAt ∧
    refuses p s 1101 (fillPlan hasty m p s 1101) = true := by
  have hrun : ((runScenes hasty [.tick (opens 1000)] vacant).bind
      (play ((hastyTick 1100).answer hasty) 12 (tick hasty))).any (fun x => stuck x.2) = true := by
    decide +kernel
  rw [Option.any_eq_true] at hrun
  obtain ⟨⟨q, w⟩, hplay, hstuck⟩ := hrun
  obtain ⟨v, hv, hplay⟩ := Option.bind_eq_some_iff.mp hplay
  have hreach := play_reaches hasty_ticks (runScenes_reaches hasty_ticks .refl hv) hplay
  unfold stuck at hstuck
  rw [Bool.and_eq_true, decide_eq_true_eq, Option.any_eq_true] at hstuck
  obtain ⟨hclock, m, hm, hstuck⟩ := hstuck
  rw [Option.any_eq_true] at hstuck
  obtain ⟨p, hp, hstuck⟩ := hstuck
  rw [Option.any_eq_true] at hstuck
  obtain ⟨s, hs, hstuck⟩ := hstuck
  rw [Bool.and_eq_true, decide_eq_true_eq] at hstuck
  exact ⟨q, w, m, p, s, hreach, hclock, hm, hp, hs, hstuck.1, hstuck.2⟩

theorem not_settles_of_refuses {p : ManagedProtocolV1 (Fin 4) (Fin 4)}
    {s : SelectedFillIntentV1 (Fin 4) (Fin 4)}
    {issuedAt : Int} {plan : FillPlan (Fin 4) (Fin 4)} (h : refuses p s issuedAt plan = true) :
    ¬Settles hasty p s issuedAt plan := by
  intro hsettles
  cases plan with
  | sign fill respondBy =>
    obtain ⟨proof, hproof⟩ := hsettles 3 ""
    rw [refuses, hproof] at h
    cases h
  | _ => cases h

/-- With fifteen minutes for the responder, which the configuration accepts, a selection that is one
second old cannot be signed. -/
theorem hasty_throws :
    ¬∀ (A B : Type) [DecidableEq A] [DecidableEq B] [Zero A] [Zero B] (env : Variables)
    (cfg : Config A B)
      (w₀ w : World A B) (q : Option (Program (Req A B) Unit)) (id : String) (m : ManagedOrder A B)
      (p : ManagedProtocolV1 A B) (s : SelectedFillIntentV1 A B) (issuedAt : Int),
      loadWindows env = .ok cfg.windows → (∀ s t, cfg.ticks s t → s ≤ t) → Start cfg w₀ →
      Reaches cfg w₀ q w → w.disk.get id = some m →
      m.protocol = some p → p.selectedIntent = some s → w.clock ≤ issuedAt →
      issuedAt < s.auth.expiresAt →
      Settles cfg p s issuedAt (fillPlan cfg m p s issuedAt) := by
  intro h
  obtain ⟨q, w, m, p, s, hreach, hclock, hm, hp, hs, hlive, hrefuses⟩ := reaches_stuck
  obtain ⟨env, henv⟩ : ∃ env, loadWindows env = .ok hasty.windows :=
    loadWindows_eq_ok.mpr ⟨by decide, by decide, by decide, by decide⟩
  have hlater : w.clock ≤ 1101 := by
    rw [hclock]
    decide
  refine not_settles_of_refuses hrefuses ?_
  exact h (Fin 4) (Fin 4) env hasty vacant w (some q) "order" m p s 1101 henv
    (fun _ _ h => h) vacant_hasty hreach hm hp hs
    hlater hlive

theorem selection_settles_hasty : ∃ (w : World (Fin 4) (Fin 4)) (m : ManagedOrder (Fin 4) (Fin 4))
    (p : ManagedProtocolV1 (Fin 4) (Fin 4)) (s : SelectedFillIntentV1 (Fin 4) (Fin 4))
    (selectedAt : Int)
    (hashlock : Fin 4), w.disk.get "order" = some m ∧ m.announcedAt = some selectedAt ∧
      ¬(60 ≤ p.orderAuth.expiresAt - 1101 →
        WindowsFit hasty (1101 - selectedAt) (p.orderAuth.expiresAt - 1101) ∧
          Proper hasty s hashlock selectedAt 1101) := by
  obtain ⟨q, w, m, p, s, hreach, hclock, hm, hp, hs, hlive, hrefuses⟩ := reaches_stuck
  have hlater : Relation.ReflTransGen hasty.ticks w.clock 1101 := by
    refine .single (hasty_ticks _ _ ?_)
    rw [hclock]
    decide
  obtain ⟨selectedAt, hashlock, hannounced, -, -, -, hiff⟩ :=
    selection_settles_iff vacant_hasty (fun _ _ h => h) hreach hm hp hs hlater hlive
  refine ⟨w, m, p, s, selectedAt, hashlock, hm, hannounced, fun hfits => ?_⟩
  exact not_settles_of_refuses hrefuses (hiff.mpr ⟨by decide, hfits⟩)

end QuantaSwap.Maker.Daemon
