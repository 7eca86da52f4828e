import DailyLottery.Error

namespace DailyLottery

open Lib

abbrev Bytes := List UInt8

/-- `[u8; 32]`: hashes, digests and the byte view of a key. -/
abbrev Bytes32 := Vector UInt8 32

namespace Sizes

def maxWinners : ℕ := 256
def defaultRemediationWindowSecs : ℤ := 30 * 60
def configSize : ℕ := 8 + 32 + 8 + 2 + 8 + 4 + 4 + 4
def lotterySize : ℕ :=
  8 + 8 + 32 + 32 + 8 + 8 + 8 + 8 + 8 + 8 + 1 + 8 + 8 + 8 + 32 + 1 + 1 + 32 + 1 + 8 + 8 + 8 + 32 +
    8 + 8 + (4 + (maxWinners + 7) / 8) + 4 + 1 + 8 + 8 + 2 + 8 + 2 + 126
def participantSize : ℕ := 8 + 32 + 32 + 32 + 8 + 1 + 8 + 8 + 8 + 8 + 32 + 4 + 4 + 4
def maxParticipants : ℕ := 4096
def vaultSize : ℕ := 8 + 32 + 1

end Sizes

/-- `K` stands for `Pubkey` throughout: the program only compares keys and takes their bytes. -/
structure Config (K : Type) where
  authority : K
  ticketPriceLamports : ℕ
  serviceChargeBps : ℕ
  lotteryCount : ℕ
  buyWindowSecs : ℕ
  uploadWindowSecs : ℕ
  maxWinnersCap : ℕ

structure Vault (K : Type) where
  lottery : K
  bump : ℕ

namespace Config

variable {K : Type}

def validateServiceCharge (bps : ℕ) : Bool := bps < 10000

def validateMaxWinnersCap (maxWinnersCap : ℕ) : Bool :=
  0 < maxWinnersCap ∧ maxWinnersCap ≤ Sizes.maxWinners

def effectiveMaxWinners (config : Config K) (participantsCount : ℕ) : ℕ :=
  if participantsCount ≤ 1 then 1
  else
    let configuredCap := max (min config.maxWinnersCap Sizes.maxWinners) 1
    min configuredCap (participantsCount - 1)

/-- What every config the program stores satisfies. -/
structure Valid (c : Config K) : Prop where
  serviceCharge : validateServiceCharge c.serviceChargeBps = true
  maxWinnersCap : validateMaxWinnersCap c.maxWinnersCap = true
  window : 0 < c.uploadWindowSecs

theorem one_le_effectiveMaxWinners (config : Config K) (n : ℕ) :
    1 ≤ config.effectiveMaxWinners n := by
  unfold effectiveMaxWinners
  split
  · exact le_rfl
  · dsimp only
    omega

theorem effectiveMaxWinners_le (config : Config K) {n : ℕ} (hn : 2 ≤ n) :
    config.effectiveMaxWinners n ≤ n - 1 := by
  unfold effectiveMaxWinners
  split
  · omega
  · exact min_le_right _ _

theorem effectiveMaxWinners_le_maxWinners (config : Config K) (n : ℕ) :
    config.effectiveMaxWinners n ≤ Sizes.maxWinners := by
  unfold effectiveMaxWinners
  split
  · decide
  · dsimp only [Sizes.maxWinners]
    omega

end Config

end DailyLottery
