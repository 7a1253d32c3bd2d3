import ZkVerify.TokenClaim.Beneficiary

/-!
# What an Ethereum beneficiary signs

The signed payload is a fixed text, the length of the message in decimal digits, the claim
message, a separator and the account that is to be paid.  Nothing marks where the digits
end, and the claim message may contain digits and separators.

Still the payload determines the claim message and the account.  A longer message does not
have fewer digits in its length, so payloads of one length belong to messages of one
length, and then the digits are the same.  The account is what follows the last separator.
-/

namespace ZkVerify.TokenClaim

open Frame

variable {A Sig : Type}

theorem length_toDigits_mono {m n : ℕ} (h : m ≤ n) :
    (Nat.toDigits 10 m).length ≤ (Nat.toDigits 10 n).length := by
  have hten : 1 < 10 := by decide
  have hlt : n < 10 ^ (Nat.toDigits 10 n).length :=
    (Nat.length_toDigits_le_iff hten Nat.length_toDigits_pos).mp le_rfl
  exact (Nat.length_toDigits_le_iff hten Nat.length_toDigits_pos).mpr (h.trans_lt hlt)

theorem length_eip191Message (message : Bytes) :
    (eip191Message message).length =
      26 + (Nat.toDigits 10 message.length).length + message.length := by
  simp only [eip191Message, ascii, List.length_append, List.length_map]
  rfl

/-- Payloads of one length belong to messages of one length. -/
theorem length_eq_of_eip191Message {m n : Bytes}
    (h : (eip191Message m).length = (eip191Message n).length) : m.length = n.length := by
  rw [length_eip191Message, length_eip191Message] at h
  rcases Nat.lt_trichotomy m.length n.length with hlt | heq | hgt
  · have hdigits := length_toDigits_mono hlt.le
    omega
  · exact heq
  · have hdigits := length_toDigits_mono hgt.le
    omega

theorem eip191Message_injective : Function.Injective eip191Message := by
  intro m n h
  have hlength := length_eq_of_eip191Message (congrArg List.length h)
  unfold eip191Message at h
  rw [hlength] at h
  exact List.append_cancel_left h

/-- The account is what follows the last separator. -/
theorem msgWithDest_inj {signing : Signing A Sig} {separator : UInt8}
    (hseparator : signing.ethMsgSeparator = [separator])
    (hinj : Function.Injective signing.toBytesLiteral)
    (hfree : ∀ a, separator ∉ signing.toBytesLiteral a) {m₁ m₂ : Bytes} {d₁ d₂ : A}
    (h : msgWithDest signing m₁ d₁ = msgWithDest signing m₂ d₂) : m₁ = m₂ ∧ d₁ = d₂ := by
  -- Read from its end, the message starts with the account and the separator.
  have hdelimited : Delimited fun a => (signing.toBytesLiteral a).reverse ++ [separator] := by
    apply Delimited.of_separator
    · exact List.reverse_injective.comp hinj
    · intro a hmem
      exact hfree a (List.mem_reverse.mp hmem)
  have hreverse := congrArg List.reverse h
  simp only [msgWithDest, hseparator, List.reverse_append, List.reverse_singleton,
    ← List.append_assoc] at hreverse
  obtain ⟨hdest, hmessage⟩ := hdelimited d₁ d₂ _ _ hreverse
  exact ⟨List.reverse_injective hmessage, hdest⟩

/-- Different pairs of a claim message and a destination have different payloads, and without a
collision of the payloads different hashes.  A signature is verified against the hash of its own
pair. -/
theorem claim_payload_injective (signing : Signing A Sig) {separator : UInt8}
    (hseparator : signing.ethMsgSeparator = [separator])
    (hinj : Function.Injective signing.toBytesLiteral)
    (hfree : ∀ a, separator ∉ signing.toBytesLiteral a) (m₁ m₂ : Bytes) (d₁ d₂ : A) :
    (eip191Message (msgWithDest signing m₁ d₁) = eip191Message (msgWithDest signing m₂ d₂) →
      m₁ = m₂ ∧ d₁ = d₂) ∧
      (signing.hashing.NoCollisions
          [(.keccak256, eip191Message (msgWithDest signing m₁ d₁)),
            (.keccak256, eip191Message (msgWithDest signing m₂ d₂))] →
        eip191HashMessage signing (msgWithDest signing m₁ d₁) =
          eip191HashMessage signing (msgWithDest signing m₂ d₂) → m₁ = m₂ ∧ d₁ = d₂) ∧
      ∀ signature address, ClaimSignature.verify signing (.ethereum signature d₁) m₁
          (.ethereum address) = true ↔
        ethRecover signing (eip191HashMessage signing (msgWithDest signing m₁ d₁)) signature =
          some address := by
  have hpayload : eip191Message (msgWithDest signing m₁ d₁) =
      eip191Message (msgWithDest signing m₂ d₂) → m₁ = m₂ ∧ d₁ = d₂ := by
    intro h
    exact msgWithDest_inj hseparator hinj hfree (eip191Message_injective h)
  refine ⟨hpayload, ?_, ?_⟩
  · intro hcollisions hhash
    have hinput := hcollisions _ List.mem_cons_self _ (List.mem_cons_of_mem _ List.mem_cons_self)
      hhash
    exact hpayload (Prod.mk.inj hinput).2
  · intro signature address
    simp only [ClaimSignature.verify]
    cases ethRecover signing (eip191HashMessage signing (msgWithDest signing m₁ d₁)) signature <;>
      simp

/-- Two accounts by their SS58 strings; nobody has an Ethereum key. -/
def sampleSs58Signing : Signing (Fin 2) Unit where
  verify _ _ _ := false
  toBytesLiteral
    | 0 => ascii "ZKYo2xNsQuQ3JYM9BBL5cf8RSG9cYydhx4zeZ7xHwcti762Nm".toList
    | 1 => ascii "ZKXDsgJhGmg3QPLefkQ7funWUAJbfX6JcaAWE4bAGYunsKBMd".toList
  ethMsgSeparator := ascii ['@']
  hashing _ message := h256 (ofLittleEndian message)
  secp256k1EcdsaRecover _ _ := none
  publicFromFull _ := none
  toEthAddress _ := none

/-- Another account is another payload, also for a message that ends like a payload. -/
theorem claim_payload_injective_sample :
    eip191Message (msgWithDest sampleSs58Signing (ascii ['1', '@']) 0) ≠
      eip191Message (msgWithDest sampleSs58Signing (ascii ['1', '@']) 1) := by
  intro h
  have hinjective := claim_payload_injective sampleSs58Signing (by rfl) (by decide) (by decide)
    (ascii ['1', '@']) (ascii ['1', '@']) 0 1
  have hdest := (hinjective.1 h).2
  cases hdest

end ZkVerify.TokenClaim
