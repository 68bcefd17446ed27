import QuantaSwap.Maker.Play

/-!
# One statement for an order

Whatever the book answers, whatever writes fail and wherever the process dies: of each order one
statement is sent at most, and it is sent from the record that holds it on disk.
-/

set_option autoImplicit false
set_option linter.unusedSectionVars false

open Lib Lib.Evm Lib.Program QuantaSwap.Htlc QuantaSwap.Htlc.V3

namespace QuantaSwap.Maker.Daemon

section

variable {A B : Type} [DecidableEq A] [DecidableEq B] [Zero A] [Zero B] {cfg : Config A B}
  {w w' w₀ : World A B} {id : String} {m : ManagedOrder A B} {st st' : Statement A B}

/-- A record holds one statement. -/
theorem Entry.holds_single (he : Entry cfg w id m) (h : m.Holds cfg st) (h' : m.Holds cfg st') :
    st = st' := by
  cases st with
  | fill proof intent auth =>
    obtain ⟨hproof, ⟨s, hs, rfl, rfl, -⟩, -⟩ := h
    cases st' with
    | fill proof' intent' auth' =>
      obtain ⟨hproof', ⟨s', hs', rfl, rfl, -⟩, -⟩ := h'
      rw [hproof] at hproof'
      rw [hs] at hs'
      cases hproof'
      cases hs'
      rfl
    | cancel proof' =>
      unfold ManagedOrder.Holds at h'
      have hnone := (he.fill proof hproof).1
      simp [hnone] at h'
  | cancel proof =>
    unfold ManagedOrder.Holds at h
    cases st' with
    | fill proof' intent' auth' =>
      have hnone := (he.fill proof' h'.1).1
      simp [hnone] at h
    | cancel proof' =>
      unfold ManagedOrder.Holds at h'
      rw [h] at h'
      cases h'
      rfl

/-- **The maker never equivocates against itself.** All statements that were ever sent for an order
are one statement, and the statement that is about to be sent is that one, and stands on disk
together with the proposal and the secret that it needs. -/
theorem statements_single (h₀ : Start cfg w₀) {p : Option (Program (Req A B) Unit)}
    (h : Reaches cfg w₀ p w) :
    (∀ id st st', (id, st) ∈ w.posted → (id, st') ∈ w.posted → st = st') ∧
    ∀ id st k, p = some (.ask (.post id st) k) →
      (∃ m, w.disk.get id = some m ∧ m.Holds cfg st) ∧ ∀ st', (id, st') ∈ w.posted → st' = st := by
  refine ⟨(reaches_safe h₀ h).1.ledger.single, ?_⟩
  rintro id st k rfl
  obtain ⟨hs, m, hm, -, hholds⟩ := reaches_guard h₀ h
  have he := (hs.entry id m hm).2
  refine ⟨⟨m, hm, hholds⟩, fun st' hst' => ?_⟩
  exact he.holds_single (he.posted st' hst').2 hholds

end

/-! ## A listing and its first proposal -/

def capability : String := String.ofList (List.replicate 64 'a')

def firstQuote : Quote := ⟨0, 100, 9, 7, capability⟩

/-- A tick in which a listing is signed, and the book is down. -/
def opens (time : Int) : Script (Fin 4) (Fin 4) where
  time := time
  attempts := true
  mid := none
  quote := some firstQuote
  secret := 2
  nonce := 1
  signature := "0x01"
  row := none
  intents := []
  makerToken := capability
  rejects := false

/-- The signature of a listing that `opens 1000` makes. -/
def listedAuth : MakerOrderAuthV1 (Fin 4) where
  scheme := SCHEME
  issuedAt := 1000
  expiresAt := 173800
  nonce := 1
  signature := "0x01"
  publicKey := "0x01"
  descriptor := OFFICIAL_DESCRIPTOR
  makerTokenCommitment := 1
  shareTokenCommitment := 0

def listedRow : OrderView (Fin 4) (Fin 4) where
  id := "order"
  direction := .ethToQrl
  asset := .ETH
  fromAmount := 9
  toAmount := 7
  makerEthAccount := 1
  makerQrlAccount := 1
  status := .open
  takerEthAccount := none
  takerQrlAccount := none
  hashlock := none
  initiatorTimeout := none
  responderTimeout := none
  released := false
  visibility := .pub
  allowedTakerEth := none
  allowedTakerQrl := none
  prelocked := false
  makerAuth := some listedAuth
  orderDigest := some 1
  fill := none
  fillAuth := none
  fillDigest := none
  selectedIntent := none
  cancelProof := none
  cancelAuth := none
  cancelDigest := none
  equivocated := false
  conflictDigests := []

def proposal (time : Int) : SelectedFillIntentV1 (Fin 4) (Fin 4) where
  intentDigest := 2
  intent := ⟨1, 2, 2, 3⟩
  auth := ⟨SCHEME, time, time + 100, 2, "0x02", "0x02", OFFICIAL_DESCRIPTOR⟩
  receivedAt := time

/-- A tick in which the listing is open, and there is one proposal. -/
def proposes (time : Int) : Script (Fin 4) (Fin 4) :=
  { opens time with
    quote := none
    nonce := 3
    row := some listedRow
    intents := [proposal (time - 50)] }

/-- A listing, and a first post of its fill that the book answers with the open row. -/
def posts : List (Scene desk) := [.tick (opens 1000), .tick (proposes 1100)]

def vacant : World (Fin 4) (Fin 4) := opening ⟨[], [], []⟩

theorem vacant_start : Start desk vacant := opening_start (by decide) (by decide)

/-- The retry sends the statement of the first post. -/
theorem statements_single_retry : ∃ (w : World (Fin 4) (Fin 4)) (st : Statement (Fin 4) (Fin 4)),
    st.hashlock.isSome = true ∧ ("order", st) ∈ w.posted ∧
      (∃ m, w.disk.get "order" = some m ∧ m.Holds desk st) ∧
      ∀ st', ("order", st') ∈ w.posted → st' = st := by
  have hrun : ((stage posts (proposes 1200) 5 vacant).any fun x =>
      match x.1 with
      | .post id st => decide (id = "order") && st.hashlock.isSome &&
          x.2.posted.any fun e => e.1 = "order"
      | _ => false) = true := by
    decide +kernel
  rw [Option.any_eq_true] at hrun
  obtain ⟨⟨asked, w⟩, hstage, hasked⟩ := hrun
  cases asked with
  | post id st =>
    simp only [Bool.and_eq_true, decide_eq_true_eq, List.any_eq_true] at hasked
    obtain ⟨⟨rfl, hfill⟩, ⟨id, first⟩, hfirst, rfl⟩ := hasked
    obtain ⟨k, hreach⟩ := stage_post desk_ticks hstage
    obtain ⟨hdisk, hsame⟩ := (statements_single vacant_start hreach).2 _ _ _ rfl
    exact ⟨w, st, hfill, hsame first hfirst ▸ hfirst, hdisk, hsame⟩
  | _ => cases hasked

end QuantaSwap.Maker.Daemon
