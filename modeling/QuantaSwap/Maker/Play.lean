import QuantaSwap.Maker.Runs

/-!
# Runs that follow a script

A script says what the clock, the signer, the book and the nodes answer in one tick, and which calls
the chains take in between. What a scripted run comes to is computed, and the daemon reaches it.
-/

set_option autoImplicit false
set_option linter.unusedSectionVars false

open Lib Lib.Evm Lib.Program QuantaSwap.Htlc QuantaSwap.Htlc.V3

namespace QuantaSwap.Maker.Daemon

/-- The answers of one tick. -/
structure Script (A B : Type) where
  time : Int
  attempts : Bool
  mid : Option Nat
  quote : Option Quote
  secret : B
  nonce : B
  signature : String
  /-- The book's row of every order; the book is down without one. -/
  row : Option (OrderView A B)
  intents : List (SelectedFillIntentV1 A B)
  makerToken : String
  /-- The contracts refuse every withdrawal. -/
  rejects : Bool

section

variable {A B : Type} [DecidableEq A] [DecidableEq B] [Zero A] [Zero B] (cfg : Config A B)

namespace Script

variable (o : Script A B)

def view : Except Err (OrderView A B) :=
  match o.row with
  | none => .error .unavailable
  | some row => .ok row

def created : Except Err (OrderView A B × String) := o.view.map fun row => (row, o.makerToken)

def write (w : World A B) (f : StateFile A B) : Option (Except Err Unit × World A B) :=
  if w.poisoned then none
  else some (.ok (), { w with memory := f, disk := f.envelope w.clock })

def read {α : Type} (w : World A B) (value : α) : Option (Except Err α × World A B) :=
  if w.poisoned then none else some (.ok value, w)

/-- Every read of a pass is made at once, and none at depth. -/
def credits (w : World A B) (q : Query A B) : Nat × Nat :=
  (Taker.creditOf q.rToken q.rAccount q.hashlock (w.leg q.rLeg),
    Taker.creditOf q.iToken q.iAccount q.hashlock (w.leg q.iLeg))

def reads (w : World A B) (q : Query A B) : Reads A B where
  iState := some (w.swap q.iLeg q.hashlock)
  rState := some (w.swap q.rLeg q.hashlock)
  rConfirmed := none
  ourResponderCredit := some (credits w q).1
  ourInitiatorCredit := some (credits w q).2
  takerCredit := none

def sign {β : Type} (r : Except String β) (verifies : β → Bool) : Option β :=
  match r with
  | .ok proof => if verifies proof then some proof else none
  | .error _ => none

def answer : Oracle (Req A B) (World A B)
  | w, _, .now => if w.clock ≤ o.time then some (o.time, { w with clock := o.time }) else none
  | w, _, .mid _ => some (o.mid, w)
  | w, _, .canAttempt => some (o.attempts, w)
  | w, _, .newSecret id =>
    if (w.secrets.all fun e => decide (cfg.sha256 e.2 ≠ cfg.sha256 o.secret)) ∧
        cfg.sha256 o.secret ∉ w.disclosed ∧ (w.swap .eth (cfg.sha256 o.secret)).status = .None ∧
        (w.swap .qrl (cfg.sha256 o.secret)).status = .None then
      some (o.secret, { w with secrets := (id, o.secret) :: w.secrets })
    else none
  | w, _, .signOrder order makerToken issuedAt expiresAt =>
    (sign (signOrderV1 cfg.codec cfg.key order makerToken issuedAt expiresAt o.nonce o.signature)
      fun proof => cfg.codec.verifyOrder proof.order.makerQrlAccount proof.order proof.auth &&
        decide (cfg.codec.deriveOrderV1Id proof.order.makerQrlAccount proof.auth.nonce ∉
          w.issued)).map
      fun proof => (.ok proof,
        { w with
          issued := [cfg.codec.deriveOrderV1Id proof.order.makerQrlAccount proof.auth.nonce] ++
            w.issued })
  | w, _, .signFill fill order selected issuedAt respondBy =>
    (sign (signFillV1 cfg.codec cfg.key fill order selected issuedAt respondBy o.nonce o.signature)
      fun proof => cfg.codec.verifyFill cfg.key.address proof.fill order.auth proof.auth).map
      fun proof => (.ok proof, w)
  | w, _, .signCancel id cancel order expiresAt =>
    (sign (signCancelV1 cfg.key cancel w.clock expiresAt o.nonce o.signature)
      fun proof => cfg.codec.verifyCancel cfg.key.address proof.cancel order proof.auth).map
      fun proof => (.ok proof, w.hear ((w.disk.get id).toList.map .cancelled))
  | w, _, .all => if w.poisoned then none else some (.ok w.memory.orders, w.settled)
  | w, _, .upsert m => write w (w.memory.upsert m w.clock)
  | w, _, .delete id _ => write w (w.memory.delete id)
  | w, _, .strandedCredits => read w w.memory.stranded
  | w, _, .recordStrandedCredit e =>
    if w.memory.stranded.any fun s => s.key = e.key then none
    else (write w (w.memory.recordStrandedCredit e)).map fun x => (x.1, x.2.noted e.key)
  | w, _, .clearStrandedCredit key =>
    if w.memory.stranded.any fun s => s.key = key then write w (w.memory.clearStrandedCredit key)
    else none
  | w, _, .retainedAdmissionCount => read w (w.memory.retainedAdmissionCount w.clock)
  | w, _, .get _ => some (o.view, w.settled)
  | w, _, .createSigned _ _ => some (o.created, w)
  | w, _, .intents _ => some (.ok o.intents, w.hear (o.intents.map .proposal))
  | w, _, .post id statement => some (o.view,
      { w with
        posted := (id, statement) :: w.posted
        disclosed := statement.hashlock.toList ++ w.disclosed })
  | w, _, .announceHashlock _ _ hashlock _ _ =>
    some (o.view, { w with disclosed := hashlock :: w.disclosed })
  | w, _, .cancel _ _ => some (o.view, w)
  | w, _, .heartbeat _ _ => some ((), w)
  | w, _, .observe id q => some (reads w q,
      { w with shown := fun id' => if id' = id then credits w q else w.shown id' })
  | w, _, .allowance _ => some (.ok 0, w)
  | w, _, .creditOf l token account =>
    let balance := V3.creditOf token account (w.leg l)
    some (some balance, w.balanceRead (l, token, account) (some balance))
  | w, _, .preflight _ _ _ _ => some (.ok (), w)
  | w, _, .send id l tx value =>
    if o.rejects && tx.withdraws then
      some (.error ⟨true, "contract rejection"⟩, w.afterSend id l tx value true)
    else some (.ok (), w.afterSend id l tx value false)
  | w, _, .quote _ _ => some (o.quote, w.hear (o.quote.toList.map .quote))

variable {cfg o} {w w' : World A B}

theorem view_answer : BookAnswer o.view := by
  intro e he
  unfold view at he
  split at he
  · cases he
    exact .inr (.inl rfl)
  · cases he

theorem write_ok {f : StateFile A B} {r : Except Err Unit} (h : write w f = some (r, w')) :
    r = .ok () := by
  unfold write at h
  split at h
  · cases h
  · cases h
    rfl

theorem write_written {f undone : StateFile A B} {r : Except Err Unit}
    (h : write w f = some (r, w')) : Write w f undone r w' := by
  unfold write at h
  split at h
  · cases h
  · rename_i hp
    cases h
    exact .persisted (by simpa using hp) .written

theorem read_memory {α : Type} {value : α} {r : Except Err α} (h : read w value = some (r, w')) :
    ReadMemory w value r ∧ w' = w := by
  unfold read at h
  split at h
  · cases h
  · rename_i hp
    cases h
    exact ⟨.read (by simpa using hp), rfl⟩

theorem sign_signs {β : Type} {make : B → String → Except String β} {verifies : β → Bool}
    {nonce : B} {signature : String} {proof : β}
    (h : sign (make nonce signature) verifies = some proof) :
    make nonce signature = .ok proof ∧ verifies proof = true := by
  unfold sign at h
  split at h
  · rename_i proof' hmake
    split at h
    · rename_i hv
      cases h
      exact ⟨hmake, hv⟩
    · cases h
  · cases h

theorem answer_operates (hticks : ∀ s t, s ≤ t → cfg.ticks s t) {β : Type} {r : Req A B β} {b : β}
    (h : answer cfg o w r = some (b, w')) : operate cfg w r b w' := by
  cases r with
  | now =>
    change ite _ _ _ = _ at h
    split at h
    · rename_i hle
      cases h
      exact ⟨hticks _ _ hle, rfl⟩
    · cases h
  | newSecret id =>
    change ite _ _ _ = _ at h
    split at h
    · rename_i hfresh
      cases h
      obtain ⟨hall, hd, he, hq⟩ := hfresh
      refine ⟨fun id' p' hmem => ?_, hd, fun l => ?_, rfl⟩
      · simpa using List.all_eq_true.mp hall _ hmem
      · cases l with
        | eth => exact he
        | qrl => exact hq
    · cases h
  | signOrder order makerToken issuedAt expiresAt =>
    obtain ⟨proof, hproof, heq⟩ := Option.map_eq_some_iff.mp h
    cases heq
    obtain ⟨hsign, hv⟩ := sign_signs hproof
    rw [Bool.and_eq_true, decide_eq_true_eq] at hv
    exact ⟨.signed hsign hv, rfl⟩
  | signFill fill order selected issuedAt respondBy =>
    obtain ⟨proof, hproof, heq⟩ := Option.map_eq_some_iff.mp h
    cases heq
    obtain ⟨hsign, hv⟩ := sign_signs hproof
    exact ⟨.signed hsign hv, rfl⟩
  | signCancel id cancel order expiresAt =>
    obtain ⟨proof, hproof, heq⟩ := Option.map_eq_some_iff.mp h
    cases heq
    obtain ⟨hsign, hv⟩ := sign_signs hproof
    exact ⟨.signed hsign hv, rfl⟩
  | all =>
    change ite _ _ _ = _ at h
    split at h
    · cases h
    · rename_i hp
      cases h
      exact ⟨.read (by simpa using hp), rfl⟩
  | upsert m => exact write_written h
  | delete id why => exact write_written h
  | strandedCredits => exact read_memory h
  | retainedAdmissionCount => exact read_memory h
  | recordStrandedCredit e =>
    change ite _ _ _ = _ at h
    split at h
    · cases h
    · rename_i hany
      change ite _ _ _
      rw [if_neg hany]
      obtain ⟨⟨r, v⟩, hv, heq⟩ := Option.map_eq_some_iff.mp h
      cases heq
      refine ⟨v, write_written hv, ?_⟩
      rw [write_ok hv]
      rfl
  | clearStrandedCredit key =>
    change ite _ _ _ = _ at h
    split at h
    · rename_i hany
      change ite _ _ _
      rw [if_pos hany]
      exact write_written h
    · cases h
  | get id =>
    cases h
    exact ⟨view_answer, rfl⟩
  | createSigned order makerToken =>
    cases h
    refine ⟨fun e he => ?_, rfl⟩
    unfold created at he
    cases hv : o.view with
    | ok row =>
      rw [hv] at he
      cases he
    | error e' =>
      rw [hv] at he
      cases he
      exact view_answer e hv
  | intents id =>
    cases h
    exact ⟨(fun e he => by cases he), rfl⟩
  | post id statement =>
    cases h
    exact ⟨view_answer, rfl⟩
  | announceHashlock id token hashlock t1 t2 =>
    cases h
    exact ⟨view_answer, rfl⟩
  | cancel id token =>
    cases h
    exact ⟨view_answer, rfl⟩
  | observe id q =>
    cases h
    refine ⟨w, credits w q, .refl, ⟨?_, ?_, ?_, ⟨w, ⟨.refl, .refl⟩, rfl⟩, ⟨w, ⟨.refl, .refl⟩, rfl⟩,
      ⟨?_, ?_⟩, ?_⟩, rfl⟩
    · intro s hs
      cases hs
      exact ⟨w, ⟨.refl, .refl⟩, rfl⟩
    · intro s hs
      cases hs
      exact ⟨w, ⟨.refl, .refl⟩, rfl⟩
    · intro s hs
      cases hs
    · intro n hn
      cases hn
      rfl
    · intro n hn
      cases hn
      rfl
    · intro n hn
      cases hn
  | allowance token =>
    cases h
    exact ⟨(fun e he => by cases he), rfl⟩
  | creditOf l token account =>
    cases h
    refine ⟨fun n hn => ?_, rfl⟩
    cases hn
    rfl
  | preflight l call hashlock margin =>
    cases h
    exact ⟨(fun e he => by cases he), rfl⟩
  | send id l tx value =>
    change ite _ _ _ = _ at h
    split at h
    · cases h
      rfl
    · cases h
      rfl
  | mid | canAttempt | heartbeat | quote =>
    cases h
    rfl

end Script

/-! ## The chains in between -/

/-- A call that an outsider may make. Claims are left out. -/
def allowed (w : World A B) (l : LegKey) (sender : A) (call : Call A B) (value : Nat) : Bool :=
  (decide (sender ≠ cfg.myAddress l) ||
      w.sent.any fun e => decide (e.2 = (l, .htlc call, value))) &&
    (match lockArgs value call with
    | none => true
    | some args => decide (args.1 ∈ w.disclosed) ||
      w.secrets.all fun e => decide (cfg.sha256 e.2 ≠ args.1)) &&
    (match call with
    | .claim _ _ => false
    | _ => true)

def move (w : World A B) : LegInput cfg.toTwoChains → Option (World A B)
  | .call1 m pre post =>
    if allowed cfg w .eth m.sender m.call m.value then
      some { w with legs := Legs.step cfg.toTwoChains w.legs (.call1 m pre post) }
    else none
  | .call2 m pre post =>
    if allowed cfg w .qrl m.sender m.call m.value then
      some { w with legs := Legs.step cfg.toTwoChains w.legs (.call2 m pre post) }
    else none
  | i => some { w with legs := Legs.step cfg.toTwoChains w.legs i }

variable {cfg} {w w' w₀ : World A B}

theorem allowed_outsider {l : LegKey} {sender : A} {call : Call A B} {value : Nat}
    (h : allowed cfg w l sender call value = true) : Outsider cfg w l sender call value := by
  unfold allowed at h
  rw [Bool.and_eq_true, Bool.and_eq_true, Bool.or_eq_true] at h
  obtain ⟨⟨hown, hlock⟩, hclaim⟩ := h
  refine ⟨fun hs => ?_, fun args ha hsecret => ?_, fun k p hc => ?_⟩
  · obtain hown | hown := hown
    · exact absurd hs (by simpa using hown)
    · obtain ⟨⟨id, e⟩, hmem, he⟩ := List.any_eq_true.mp hown
      obtain rfl : e = _ := by simpa using he
      exact ⟨id, hmem⟩
  · rw [ha] at hlock
    obtain ⟨id, p, hp, hk⟩ := hsecret
    simp only [Bool.or_eq_true, decide_eq_true_eq, List.all_eq_true] at hlock
    obtain hd | hno := hlock
    · exact hd
    · exact absurd hk (hno _ hp)
  · rw [hc] at hclaim
    cases hclaim

theorem move_env {i : LegInput cfg.toTwoChains} (h : move cfg w i = some w') : Env cfg w w' := by
  unfold move at h
  split at h
  · split at h
    · rename_i hallowed
      cases h
      exact ⟨.call1 _ _ _, allowed_outsider hallowed, rfl⟩
    · cases h
  · split at h
    · rename_i hallowed
      cases h
      exact ⟨.call2 _ _ _, allowed_outsider hallowed, rfl⟩
    · cases h
  · rename_i h₁ h₂
    cases h
    refine ⟨i, ?_, rfl⟩
    cases i with
    | call1 m pre post => exact (h₁ m pre post rfl).elim
    | call2 m pre post => exact (h₂ m pre post rfl).elim
    | wait n => trivial
    | outside1 o => trivial
    | outside2 o => trivial

/-! ## A scripted run -/

inductive Scene (cfg : Config A B)
  | tick (o : Script A B)
  | move (i : LegInput cfg.toTwoChains)

variable (cfg)

def Scene.run (w : World A B) : Scene cfg → Option (World A B)
  | .tick o => playOut (o.answer cfg) 100 (Daemon.tick cfg) w
  | .move i => Daemon.move cfg w i

def runScenes : List (Scene cfg) → World A B → Option (World A B)
  | [], w => some w
  | scene :: scenes, w => (scene.run cfg w).bind (runScenes scenes)

variable {cfg}

theorem runScenes_reaches (hticks : ∀ s t, s ≤ t → cfg.ticks s t) {scenes : List (Scene cfg)}
    (hw : Reaches cfg w₀ none w) (h : runScenes cfg scenes w = some w') :
    Reaches cfg w₀ none w' := by
  induction scenes generalizing w with
  | nil =>
    cases h
    exact hw
  | cons scene scenes ih =>
    unfold runScenes at h
    obtain ⟨v, hv, h⟩ := Option.bind_eq_some_iff.mp h
    refine ih ?_ h
    cases scene with
    | tick o => exact hw.trans (playOut_turns (fun _ _ _ _ _ => Script.answer_operates hticks) hv)
    | move i => exact hw.tail (.env (move_env hv))

theorem play_reaches (hticks : ∀ s t, s ≤ t → cfg.ticks s t) {o : Script A B} {n : Nat}
    {p : Program (Req A B) Unit} (hw : Reaches cfg w₀ none w)
    (h : play (o.answer cfg) n (tick cfg) w = some (p, w')) : Reaches cfg w₀ (some p) w' :=
  (hw.tail .start).trans (play_turns (fun _ _ _ _ _ => Script.answer_operates hticks) h)

/-! ## What is asked next -/

/-- The requests that runs are followed up to. -/
inductive Asked (A B : Type)
  | upsert (m : ManagedOrder A B)
  | delete (id : String) (why : Retire)
  | post (id : String) (statement : Statement A B)
  | other
  deriving DecidableEq

def Asked.of {β : Type} : Req A B β → Asked A B
  | .upsert m => .upsert m
  | .delete id why => .delete id why
  | .post id statement => .post id statement
  | _ => .other

/-- The scenes, and then `n` requests of the next tick. -/
def stage (scenes : List (Scene cfg)) (o : Script A B) (n : Nat) (w : World A B) :
    Option (Asked A B × World A B) :=
  ((runScenes cfg scenes w).bind (play (o.answer cfg) n (tick cfg))).map fun x =>
    (match x.1 with
      | .ret _ => .other
      | .ask r _ => .of r, x.2)

theorem stage_reaches (hticks : ∀ s t, s ≤ t → cfg.ticks s t) {scenes : List (Scene cfg)}
    {o : Script A B} {n : Nat} {asked : Asked A B} (h : stage scenes o n w₀ = some (asked, w))
    (hasked : asked ≠ .other) : ∃ (β : Type) (r : Req A B β) (k : β → Program (Req A B) Unit),
      Asked.of r = asked ∧ Reaches cfg w₀ (some (.ask r k)) w := by
  unfold stage at h
  obtain ⟨⟨p, v⟩, hp, heq⟩ := Option.map_eq_some_iff.mp h
  obtain ⟨u, hu, hplay⟩ := Option.bind_eq_some_iff.mp hp
  have hreach := play_reaches hticks (runScenes_reaches hticks .refl hu) hplay
  cases p with
  | ret _ =>
    cases heq
    exact absurd rfl hasked
  | ask r k =>
    cases heq
    exact ⟨_, r, k, rfl, hreach⟩

theorem staged {scenes : List (Scene cfg)} {o : Script A B} {n : Nat} {asked : Asked A B}
    (shows : World A B → Bool)
    (h : ((stage scenes o n w₀).any fun x => decide (x.1 = asked) && shows x.2) = true) :
    ∃ w, stage scenes o n w₀ = some (asked, w) ∧ shows w = true := by
  rw [Option.any_eq_true] at h
  obtain ⟨⟨asked', w⟩, hstage, h⟩ := h
  rw [Bool.and_eq_true, decide_eq_true_eq] at h
  obtain ⟨rfl, hshows⟩ := h
  exact ⟨w, hstage, hshows⟩

theorem stage_delete (hticks : ∀ s t, s ≤ t → cfg.ticks s t) {scenes : List (Scene cfg)}
    {o : Script A B} {n : Nat} {id : String} {why : Retire}
    (h : stage scenes o n w₀ = some (.delete id why, w)) :
    ∃ k, Reaches cfg w₀ (some (.ask (.delete id why) k)) w := by
  obtain ⟨β, r, k, hr, hreach⟩ := stage_reaches hticks h (by simp)
  cases r with
  | delete id' why' =>
    cases hr
    exact ⟨k, hreach⟩
  | _ => cases hr

theorem stage_post (hticks : ∀ s t, s ≤ t → cfg.ticks s t) {scenes : List (Scene cfg)}
    {o : Script A B} {n : Nat} {id : String} {st : Statement A B}
    (h : stage scenes o n w₀ = some (.post id st, w)) :
    ∃ k, Reaches cfg w₀ (some (.ask (.post id st) k)) w := by
  obtain ⟨β, r, k, hr, hreach⟩ := stage_reaches hticks h (by simp)
  cases r with
  | post id' st' =>
    cases hr
    exact ⟨k, hreach⟩
  | _ => cases hr

end

/-! ## A small desk -/

/-- A maker on two small chains; the hash adds one, and every signature is good. -/
def desk : Config (Fin 4) (Fin 4) where
  chain₁ := small.toChain
  chain₂ := small.toChain
  sha256 := small.sha256
  codec :=
    { deriveOrderV1Id := fun _ _ => "order"
      capabilityCommitment := fun _ => 1
      computeOrderDigest := fun _ _ => 1
      computeFillIntentDigest := fun _ _ => 2
      computeFillDigest := fun _ _ _ => 3
      computeCancelDigest := fun _ _ _ => 3
      verifyOrder := fun _ _ _ => true
      verifyIntent := fun _ _ => true
      verifyFill := fun _ _ _ _ => true
      verifyCancel := fun _ _ _ _ => true }
  key := ⟨1, "0x01"⟩
  le := fun a b => decide (a ≤ b)
  myAddress := fun _ => 1
  tokenAddress := fun _ => none
  approvalRace := fun _ => false
  ethHtlc := 3
  drain := false
  sponsorClaims := true
  initiatorWindowS := 14400
  responderWindowS := 7200
  orderLifetimeS := 172800
  resendAfterS := 300
  claimSafetyS := 600
  lockGraceS := 30
  txTimeoutMs := 120000
  repriceThresholdBps := 50
  assets := [.ETH]
  ticks := fun s t => s ≤ t

theorem desk_ticks (s t : Int) (h : s ≤ t) : desk.ticks s t := h

/-- The desk before its first tick, with nothing on the chains yet. -/
def opening (file : StateFile (Fin 4) (Fin 4)) : World (Fin 4) (Fin 4) where
  clock := 1000
  memory := file.hydrate 1000
  disk := file
  poisoned := false
  legs := ⟨1000, genesis (fun _ => 100) (fun _ _ => 0) (fun _ => false),
    genesis (fun _ => 100) (fun _ _ => 0) (fun _ => false)⟩
  issued := file.orders.map (·.id)
  secrets := []
  disclosed := []
  published := []
  posted := []
  sent := []
  shown := fun _ => (0, 0)
  tried := fun _ => none
  emptied := []
  heard := []

theorem opening_start {file : StateFile (Fin 4) (Fin 4)} (hids : (file.orders.map (·.id)).Nodup)
    (hfile : ∀ m ∈ file.orders, m.protocol = none ∧ m.preimage = none ∧ m.hashlock = none ∧
      m.lockSentAt = none ∧ m.claimSentAt = none) : Start desk (opening file) :=
  ⟨rfl, rfl, ⟨1000, _, _, _, _, _, _, [], rfl⟩, hids, rfl, hfile, ⟨rfl, rfl, rfl, rfl, rfl⟩, rfl,
    rfl⟩

end QuantaSwap.Maker.Daemon
