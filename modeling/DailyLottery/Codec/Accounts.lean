import DailyLottery.Codec.Pages
import DailyLottery.State.VoteTally
import DailyLottery.State.Lottery
import DailyLottery.State.Participant

namespace DailyLottery

open Lib

namespace Borsh

variable {α : Type} {codec : Borsh α}

/-- A `u64` that is taken apart bit by bit. -/
def word : Borsh (BitVec 64) :=
  (uint 8).imap (BitVec.ofNat 64) BitVec.toNat fun v ↦ by
    rw [BitVec.ofNat_toNat, BitVec.setWidth_eq]

theorem fits_uint {width n : ℕ} (h : n < 2 ^ (8 * width)) : (uint width).Fits n := by
  change n < 256 ^ width
  rwa [Nat.pow_mul] at h

theorem fits_word (v : BitVec 64) : word.Fits v := fits_uint v.isLt

theorem fits_bool (b : Bool) : bool.Fits b := by
  have hlt : b.toNat < 2 ^ 8 := by cases b <;> decide
  exact ⟨trivial, fits_uint hlt⟩

theorem fits_i64 {t : ℤ} (h : -2 ^ 63 ≤ t ∧ t < 2 ^ 63) : i64.Fits t := by
  have hlt : (t % 2 ^ 64).toNat < 2 ^ 64 := by omega
  exact ⟨h, fits_uint hlt⟩

theorem length_flatMap_encode {n : ℕ} (h : ∀ x, (codec.encode x).length = n) (as : List α) :
    (as.flatMap codec.encode).length = as.length * n := by
  induction as with
  | nil => simp
  | cons x as ih =>
      rw [List.flatMap_cons, List.length_append, h, ih, List.length_cons, Nat.succ_mul,
      Nat.add_comm]

/-- What an account of `space` bytes is for: the value fills it, whatever was there before, and is
read back. -/
structure Stores (codec : Borsh α) (space : ℕ) (a : α) : Prop where
  size : 8 + (codec.encode a).length = space
  write : ∀ (discriminator : Vector UInt8 8) (data : Bytes), data.length = space →
    ∃ data', writeAccountBytes codec discriminator a data = .ok data' ∧ data'.length = space ∧
      readAccountBytes codec data' = .ok a

theorem stores {space : ℕ} {a : α} (hfits : codec.Fits a)
    (hsize : 8 + (codec.encode a).length = space) : codec.Stores space a := by
  refine ⟨hsize, fun discriminator data hlen ↦ ?_⟩
  have hle : 8 + (codec.encode a).length ≤ data.length := by
    rw [hsize, hlen]
  obtain ⟨data', hwrite, hsame, -, -⟩ := @writeAccountBytes_ok _ _ discriminator _ _ hle
  exact ⟨data', hwrite, hsame.trans hlen, readAccountBytes_write hfits hle hwrite⟩

end Borsh

section Lengths

open Borsh

@[simp] theorem length_encode_uint (width n : ℕ) : ((uint width).encode n).length = width :=
  length_leBytes width n

@[simp] theorem length_encode_array {n : ℕ} (a : Vector UInt8 n) :
    ((array n).encode a).length = n :=
  a.length_toList

@[simp] theorem length_encode_byte (b : UInt8) : (byte.encode b).length = 1 := rfl

@[simp] theorem length_encode_bool (b : Bool) : (Borsh.bool.encode b).length = 1 :=
  length_leBytes 1 _

@[simp] theorem length_encode_i64 (t : ℤ) : (i64.encode t).length = 8 := length_leBytes 8 _

@[simp] theorem length_encode_word (v : BitVec 64) : (word.encode v).length = 8 :=
    length_leBytes 8 _

@[simp] theorem length_encode_prod {α β : Type} (a : Borsh α) (b : Borsh β) (x : α × β) :
    ((a.prod b).encode x).length = (a.encode x.1).length + (b.encode x.2).length :=
  List.length_append

@[simp] theorem length_encode_vec {α : Type} (a : Borsh α) (as : List α) :
    (a.vec.encode as).length = 4 + (as.flatMap a.encode).length := by
  simp [Borsh.vec]

end Lengths

variable {K K' : Type} (key : K → K')

namespace Config

def withKeys (c : Config K) : Config K' := { c with authority := key c.authority }

def codec : Borsh (Config Bytes32) :=
  ((Borsh.array 32).prod <| (Borsh.uint 8).prod <| (Borsh.uint 2).prod <| (Borsh.uint 8).prod <|
    (Borsh.uint 4).prod <| (Borsh.uint 4).prod (Borsh.uint 4)).imap
    (fun x ↦ ⟨x.1, x.2.1, x.2.2.1, x.2.2.2.1, x.2.2.2.2.1, x.2.2.2.2.2.1, x.2.2.2.2.2.2⟩)
    (fun c ↦ (c.authority, c.ticketPriceLamports, c.serviceChargeBps, c.lotteryCount,
      c.buyWindowSecs, c.uploadWindowSecs, c.maxWinnersCap))
    fun _ ↦ rfl

/-- The values the field types of the source have. -/
structure InRange (c : Config K) : Prop where
  ticketPriceLamports : c.ticketPriceLamports < 2 ^ 64
  serviceChargeBps : c.serviceChargeBps < 2 ^ 16
  lotteryCount : c.lotteryCount < 2 ^ 64
  buyWindowSecs : c.buyWindowSecs < 2 ^ 32
  uploadWindowSecs : c.uploadWindowSecs < 2 ^ 32
  maxWinnersCap : c.maxWinnersCap < 2 ^ 32

theorem InRange.stores {c : Config K} (h : c.InRange) (key : K → Bytes32) :
    codec.Stores Sizes.configSize (c.withKeys key) := by
  refine Borsh.stores ?_ ?_
  · refine ⟨trivial, Borsh.fits_uint h.ticketPriceLamports, Borsh.fits_uint h.serviceChargeBps,
      Borsh.fits_uint h.lotteryCount, Borsh.fits_uint h.buyWindowSecs,
      Borsh.fits_uint h.uploadWindowSecs, Borsh.fits_uint h.maxWinnersCap⟩
  · simp [codec, Borsh.imap, Sizes.configSize]

end Config

namespace Vault

def withKeys (v : Vault K) : Vault K' := { v with lottery := key v.lottery }

def codec : Borsh (Vault Bytes32) :=
  ((Borsh.array 32).prod (Borsh.uint 1)).imap (fun x ↦ ⟨x.1, x.2⟩) (fun v ↦ (v.lottery, v.bump))
    fun _ ↦ rfl

structure InRange (v : Vault K) : Prop where
  bump : v.bump < 2 ^ 8

theorem InRange.stores {v : Vault K} (h : v.InRange) (key : K → Bytes32) :
    codec.Stores Sizes.vaultSize (v.withKeys key) := by
  refine Borsh.stores ⟨trivial, Borsh.fits_uint h.bump⟩ ?_
  simp [codec, Borsh.imap, Sizes.vaultSize]

end Vault

namespace Participant

def withKeys (p : Participant K) : Participant K' :=
  { p with lottery := key p.lottery, wallet := key p.wallet }

def codec : Borsh (Participant Bytes32) :=
  ((Borsh.array 32).prod <| (Borsh.array 32).prod <| (Borsh.array 32).prod <| (Borsh.uint 8).prod <|
    Borsh.bool.prod <| Borsh.i64.prod <| Borsh.word.prod <| (Borsh.uint 8).prod <|
    (Borsh.uint 8).prod <| (Borsh.array 32).prod <| (Borsh.uint 4).prod <|
    (Borsh.uint 4).prod (Borsh.uint 4)).imap
    (fun ⟨lottery, wallet, hash, tickets, attested, attestedAt, voted, score, index, digest,
        finalized, selected, round⟩ ↦
      ⟨lottery, wallet, hash, tickets, attested, attestedAt, voted, score, index, digest, finalized,
        selected, round⟩)
    (fun p ↦ (p.lottery, p.wallet, p.proofOfChanceHash, p.ticketsBought, p.attestedUploaded,
      p.attestedAtUnix, p.votedNumberOfWinners, p.revealScore, p.participantIndex, p.revealDigest,
      p.finalizationGeneration, p.selectedGeneration, p.selectedRound))
    fun _ ↦ rfl

/-- The same but for the score, which is bounded by the length of the reveal. -/
structure InRange (p : Participant K) : Prop where
  ticketsBought : p.ticketsBought < 2 ^ 64
  attestedAtUnix : -2 ^ 63 ≤ p.attestedAtUnix ∧ p.attestedAtUnix < 2 ^ 63
  participantIndex : p.participantIndex < 2 ^ 64
  finalizationGeneration : p.finalizationGeneration < 2 ^ 32
  selectedGeneration : p.selectedGeneration < 2 ^ 32
  selectedRound : p.selectedRound < 2 ^ 32

theorem InRange.stores {p : Participant K} (h : p.InRange) (hscore : p.revealScore < 2 ^ 64)
    (key : K → Bytes32) : codec.Stores Sizes.participantSize (p.withKeys key) := by
  refine Borsh.stores ?_ ?_
  · exact ⟨trivial, trivial, trivial, Borsh.fits_uint h.ticketsBought, Borsh.fits_bool _,
      Borsh.fits_i64 h.attestedAtUnix, Borsh.fits_word _, Borsh.fits_uint hscore,
      Borsh.fits_uint h.participantIndex, trivial, Borsh.fits_uint h.finalizationGeneration,
      Borsh.fits_uint h.selectedGeneration, Borsh.fits_uint h.selectedRound⟩
  · simp [codec, Borsh.imap, Sizes.participantSize]

end Participant

namespace VoteTally

def withKeys (t : VoteTally K) : VoteTally K' := { t with lottery := key t.lottery }

def codec : Borsh (VoteTally Bytes32) :=
  ((Borsh.array 32).prod <| (Borsh.uint 8).prod <| (Borsh.uint 8).prod <| (Borsh.uint 8).prod <|
    (Borsh.uint 16).vec.prod Borsh.i64.vec).imap
    (fun x ↦ ⟨x.1, x.2.1, x.2.2.1, x.2.2.2.1, x.2.2.2.2.1, x.2.2.2.2.2⟩)
    (fun t ↦ (t.lottery, t.maxWinners, t.totalAttested, t.processedCount, t.weights, t.firstSeen))
    fun _ ↦ rfl

structure InRange (t : VoteTally K) : Prop where
  maxWinners : t.maxWinners ≤ Sizes.maxWinners
  totalAttested : t.totalAttested < 2 ^ 64
  processedCount : t.processedCount < 2 ^ 64
  weights : t.weights.length = t.maxWinners + 1 ∧ ∀ n ∈ t.weights, n < 2 ^ 128
  firstSeen : t.firstSeen.length = t.maxWinners + 1 ∧
    ∀ time ∈ t.firstSeen, -2 ^ 63 ≤ time ∧ time < 2 ^ 63

theorem InRange.stores {t : VoteTally K} (h : t.InRange) (key : K → Bytes32) :
    codec.Stores (accountSizeFor t.maxWinners) (t.withKeys key) := by
  obtain ⟨hmax, hatt, hproc, ⟨hwlen, hweights⟩, ⟨hflen, hfirst⟩⟩ := h
  have hlt : t.maxWinners < 2 ^ 64 := by
    rw [Sizes.maxWinners] at hmax
    omega
  have hsmall {n : ℕ} (hn : n = t.maxWinners + 1) : n < 2 ^ 32 := by
    rw [Sizes.maxWinners] at hmax
    omega
  refine Borsh.stores ?_ ?_
  · exact ⟨trivial, Borsh.fits_uint hlt, Borsh.fits_uint hatt, Borsh.fits_uint hproc,
      ⟨hsmall hwlen, fun n hn ↦ Borsh.fits_uint (hweights n hn)⟩,
      ⟨hsmall hflen, fun time ht ↦ Borsh.fits_i64 (hfirst time ht)⟩⟩
  · have hw := Borsh.length_flatMap_encode (length_encode_uint 16) t.weights
    have hf := Borsh.length_flatMap_encode length_encode_i64 t.firstSeen
    simp only [codec, Borsh.imap, withKeys, length_encode_prod, length_encode_array,
      length_encode_uint, length_encode_vec, hw, hf, hwlen, hflen, accountSizeFor]
    omega

end VoteTally

namespace Lottery

def withKeys (l : Lottery K) : Lottery K' :=
  { l with config := key l.config, authority := key l.authority, vault := key l.vault }

def codec : Borsh (Lottery Bytes32) :=
  ((Borsh.uint 8).prod <| (Borsh.array 32).prod <| (Borsh.array 32).prod <|
    -- created, the windows, settlement
    Borsh.i64.prod <| Borsh.i64.prod <| Borsh.i64.prod <| Borsh.i64.prod <| Borsh.i64.prod <|
    Borsh.i64.prod <| Borsh.byte.prod <| (Borsh.uint 8).prod <| (Borsh.uint 8).prod <|
    (Borsh.uint 8).prod <| (Borsh.array 32).prod <| Borsh.bool.prod <| Borsh.bool.prod <|
    (Borsh.array 32).prod <| (Borsh.uint 1).prod <| (Borsh.uint 8).prod <| (Borsh.uint 8).prod <|
    (Borsh.uint 8).prod <| (Borsh.array 32).prod <| (Borsh.uint 8).prod <| (Borsh.uint 8).prod <|
    Borsh.byte.vec.prod <| (Borsh.uint 4).prod <| Borsh.bool.prod <|
    -- remediation
    Borsh.i64.prod <| Borsh.i64.prod <| (Borsh.uint 2).prod <| (Borsh.uint 8).prod <|
    (Borsh.uint 2).prod (Borsh.array 126)).imap
    (fun ⟨id, config, authority, created, buyStart, buyDeadline, uploadStart, uploadDeadline,
        settlementStart, status, totalTickets, totalFunds, uploaded, aggregate,
          uploadsComplete, settled,
        vault, bump, attested, participants, selected, root, winners, payout, bitmap, batches,
        complete, remediationStart, remediationDeadline, bps, price, version, reserved⟩ ↦
      ⟨id, config, authority, created, buyStart, buyDeadline, uploadStart, uploadDeadline,
        settlementStart, status, totalTickets, totalFunds, uploaded, aggregate,
          uploadsComplete, settled,
        vault, bump, attested, participants, selected, root, winners, payout, bitmap, batches,
        complete, remediationStart, remediationDeadline, bps, price, version, reserved⟩)
    (fun l ↦ (l.id, l.config, l.authority, l.createdAtUnix, l.buyStartUnix, l.buyDeadlineUnix,
      l.uploadStartUnix, l.uploadDeadlineUnix, l.settlementStartUnix, l.status, l.totalTickets,
      l.totalFunds, l.providerUploadedCount, l.pocAggregateHash, l.uploadsComplete, l.settled,
      l.vault, l.vaultBump, l.attestedCount, l.participantsCount, l.selectedNumberOfWinners,
      l.winnersMerkleRoot, l.winnersCount, l.totalPayout, l.paidWinnersBitmap,
      l.settlementBatchesCompleted, l.settlementComplete, l.remediationStartUnix,
      l.remediationDeadlineUnix, l.serviceChargeBps, l.ticketPriceLamports, l.accountVersion,
      l.reserved))
    fun _ ↦ rfl

structure InRange (l : Lottery K) : Prop where
  id : l.id < 2 ^ 64
  createdAtUnix : -2 ^ 63 ≤ l.createdAtUnix ∧ l.createdAtUnix < 2 ^ 63
  buyStartUnix : -2 ^ 63 ≤ l.buyStartUnix ∧ l.buyStartUnix < 2 ^ 63
  buyDeadlineUnix : -2 ^ 63 ≤ l.buyDeadlineUnix ∧ l.buyDeadlineUnix < 2 ^ 63
  uploadStartUnix : -2 ^ 63 ≤ l.uploadStartUnix ∧ l.uploadStartUnix < 2 ^ 63
  uploadDeadlineUnix : -2 ^ 63 ≤ l.uploadDeadlineUnix ∧ l.uploadDeadlineUnix < 2 ^ 63
  settlementStartUnix : -2 ^ 63 ≤ l.settlementStartUnix ∧ l.settlementStartUnix < 2 ^ 63
  totalTickets : l.totalTickets < 2 ^ 64
  totalFunds : l.totalFunds < 2 ^ 64
  providerUploadedCount : l.providerUploadedCount < 2 ^ 64
  vaultBump : l.vaultBump < 2 ^ 8
  attestedCount : l.attestedCount < 2 ^ 64
  participantsCount : l.participantsCount < 2 ^ 64
  selectedNumberOfWinners : l.selectedNumberOfWinners < 2 ^ 64
  winnersCount : l.winnersCount ≤ Sizes.maxWinners
  totalPayout : l.totalPayout < 2 ^ 64
  paidWinnersBitmap : l.paidWinnersBitmap.length = (Sizes.maxWinners + 7) / 8
  settlementBatchesCompleted : l.settlementBatchesCompleted < 2 ^ 32
  remediationStartUnix : -2 ^ 63 ≤ l.remediationStartUnix ∧ l.remediationStartUnix < 2 ^ 63
  remediationDeadlineUnix : -2 ^ 63 ≤ l.remediationDeadlineUnix ∧ l.remediationDeadlineUnix < 2 ^ 63
  serviceChargeBps : l.serviceChargeBps < 2 ^ 16
  ticketPriceLamports : l.ticketPriceLamports < 2 ^ 64
  accountVersion : l.accountVersion < 2 ^ 16

theorem InRange.stores {l : Lottery K} (h : l.InRange) (key : K → Bytes32) :
    codec.Stores Sizes.lotterySize (l.withKeys key) := by
  have hbitmap : l.paidWinnersBitmap.length < 2 ^ 32 := by
    rw [h.paidWinnersBitmap]
    decide
  have hwinners : l.winnersCount < 2 ^ 64 := h.winnersCount.trans_lt (by decide)
  refine Borsh.stores ?_ ?_
  · exact ⟨Borsh.fits_uint h.id, trivial, trivial, Borsh.fits_i64 h.createdAtUnix,
      Borsh.fits_i64 h.buyStartUnix, Borsh.fits_i64 h.buyDeadlineUnix,
      Borsh.fits_i64 h.uploadStartUnix, Borsh.fits_i64 h.uploadDeadlineUnix,
      Borsh.fits_i64 h.settlementStartUnix, trivial, Borsh.fits_uint h.totalTickets,
      Borsh.fits_uint h.totalFunds, Borsh.fits_uint h.providerUploadedCount, trivial,
      Borsh.fits_bool _, Borsh.fits_bool _, trivial, Borsh.fits_uint h.vaultBump,
      Borsh.fits_uint h.attestedCount, Borsh.fits_uint h.participantsCount,
      Borsh.fits_uint h.selectedNumberOfWinners, trivial, Borsh.fits_uint hwinners,
      Borsh.fits_uint h.totalPayout, ⟨hbitmap, fun _ _ ↦ trivial⟩,
      Borsh.fits_uint h.settlementBatchesCompleted, Borsh.fits_bool _,
      Borsh.fits_i64 h.remediationStartUnix, Borsh.fits_i64 h.remediationDeadlineUnix,
      Borsh.fits_uint h.serviceChargeBps, Borsh.fits_uint h.ticketPriceLamports,
      Borsh.fits_uint h.accountVersion, trivial⟩
  · have hbytes := Borsh.length_flatMap_encode length_encode_byte l.paidWinnersBitmap
    simp [codec, Borsh.imap, withKeys, hbytes, h.paidWinnersBitmap, Sizes.lotterySize,
      Sizes.maxWinners]

end Lottery

def FinalizationPhase.toByte : FinalizationPhase → ℕ
  | .aggregating => 0
  | .selecting => 1
  | .completed => 2
  | .unknown => 3

def FinalizationPhase.ofByte (n : ℕ) : FinalizationPhase :=
  if n = 0 then .aggregating else if n = 1 then .selecting
  else if n = 2 then .completed else .unknown

namespace FinalizationLedger

def withKeys (root : FinalizationLedger K) : FinalizationLedger K' :=
  { root with
    lottery := key root.lottery
    pendingWinner := key root.pendingWinner
    lastProcessedWallet := key root.lastProcessedWallet }

/-- A phase the program writes; which byte an unknown one had is not recorded. -/
def phaseCodec : Borsh FinalizationPhase :=
  (Borsh.uint 1).partly (· ≠ .unknown) (fun n ↦
    some (.ofByte n)) FinalizationPhase.toByte fun p _ ↦ by
    cases p <;> rfl

@[simp] theorem length_encode_phaseCodec (p : FinalizationPhase) :
    (phaseCodec.encode p).length = 1 := length_leBytes 1 _

def codec : Borsh (FinalizationLedger Bytes32) :=
  ((Borsh.array 32).prod <| (Borsh.uint 2).prod <| phaseCodec.prod <| (Borsh.uint 4).prod <|
    (Borsh.uint 8).prod <| (Borsh.uint 8).prod <| (Borsh.uint 8).prod <| (Borsh.uint 8).prod <|
    (Borsh.array 32).prod <| (Borsh.array 32).prod <| (Borsh.uint 4).prod <| (Borsh.uint 4).prod <|
    (Borsh.uint 4).prod <| (Borsh.uint 8).prod <| (Borsh.uint 8).prod <| (Borsh.uint 8).prod <|
    (Borsh.uint 8).prod <| (Borsh.array 32).prod <| (Borsh.uint 8).prod <| Borsh.bool.prod <|
    Borsh.bool.prod <| (Borsh.array 32).prod <| (Borsh.array 32).prod <| Borsh.bool.prod <|
    Borsh.i64.prod <| Borsh.i64.prod (Borsh.array 64)).imap
    (fun ⟨lottery, version, phase, generation, required, processed, eligible, tickets,
      seed, commitment,
        target, round, selected, selectedTickets, roundProcessed, roundTickets, draw, pending,
        pendingTickets, found, hasLast, last, winners, completed, started, completedAt, reserved⟩ ↦
      ⟨lottery, version, phase, generation, required, processed, eligible, tickets,
        seed, commitment,
        target, round, selected, selectedTickets, roundProcessed, roundTickets, draw, pending,
        pendingTickets, found, hasLast, last, winners, completed, started, completedAt, reserved⟩)
    (fun root ↦ (root.lottery, root.protocolVersion, root.phase, root.generation,
      root.requiredCount,
      root.processedCount, root.eligibleCount, root.totalEligibleTickets, root.seed,
      root.participantsCommitment, root.targetWinners, root.currentRound, root.selectedCount,
      root.selectedTicketsTotal, root.roundProcessedCount, root.roundRemainingTicketsSeen,
      root.roundDrawIndex, root.pendingWinner, root.pendingWinnerTickets, root.pendingWinnerFound,
      root.hasLastWallet, root.lastProcessedWallet, root.winnersCommitment, root.completed,
      root.startedAtUnix, root.completedAtUnix, root.reserved))
    fun _ ↦ rfl

structure InRange (root : FinalizationLedger K) : Prop where
  protocolVersion : root.protocolVersion < 2 ^ 16
  phase : root.phase ≠ .unknown
  generation : root.generation < 2 ^ 32
  requiredCount : root.requiredCount < 2 ^ 64
  processedCount : root.processedCount < 2 ^ 64
  eligibleCount : root.eligibleCount < 2 ^ 64
  totalEligibleTickets : root.totalEligibleTickets < 2 ^ 64
  targetWinners : root.targetWinners < 2 ^ 32
  currentRound : root.currentRound < 2 ^ 32
  selectedCount : root.selectedCount < 2 ^ 32
  selectedTicketsTotal : root.selectedTicketsTotal < 2 ^ 64
  roundProcessedCount : root.roundProcessedCount < 2 ^ 64
  roundRemainingTicketsSeen : root.roundRemainingTicketsSeen < 2 ^ 64
  roundDrawIndex : root.roundDrawIndex < 2 ^ 64
  pendingWinnerTickets : root.pendingWinnerTickets < 2 ^ 64
  startedAtUnix : -2 ^ 63 ≤ root.startedAtUnix ∧ root.startedAtUnix < 2 ^ 63
  completedAtUnix : -2 ^ 63 ≤ root.completedAtUnix ∧ root.completedAtUnix < 2 ^ 63

theorem InRange.stores {root : FinalizationLedger K} (h : root.InRange) (key : K → Bytes32) :
    codec.Stores size (root.withKeys key) := by
  have hphase : phaseCodec.Fits root.phase := by
    refine ⟨h.phase, Borsh.fits_uint ?_⟩
    cases root.phase <;> decide
  refine Borsh.stores ?_ ?_
  · exact ⟨trivial, Borsh.fits_uint h.protocolVersion, hphase, Borsh.fits_uint h.generation,
      Borsh.fits_uint h.requiredCount, Borsh.fits_uint h.processedCount,
      Borsh.fits_uint h.eligibleCount, Borsh.fits_uint h.totalEligibleTickets, trivial, trivial,
      Borsh.fits_uint h.targetWinners, Borsh.fits_uint h.currentRound,
      Borsh.fits_uint h.selectedCount, Borsh.fits_uint h.selectedTicketsTotal,
      Borsh.fits_uint h.roundProcessedCount, Borsh.fits_uint h.roundRemainingTicketsSeen,
      Borsh.fits_uint h.roundDrawIndex, trivial, Borsh.fits_uint h.pendingWinnerTickets,
      Borsh.fits_bool _, Borsh.fits_bool _, trivial, trivial, Borsh.fits_bool _,
      Borsh.fits_i64 h.startedAtUnix, Borsh.fits_i64 h.completedAtUnix, trivial⟩
  · simp [codec, Borsh.imap, size]

end FinalizationLedger

def WinnerPage.withKeys {K K' : Type} (page : WinnerPage K) (key : K → K') : WinnerPage K' :=
  { page with lottery := key page.lottery }

end DailyLottery
