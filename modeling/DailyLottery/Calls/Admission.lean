import DailyLottery.Calls.Batches

set_option linter.unusedSectionVars false

namespace DailyLottery

open Lib Ballot AccountInfo

variable {K : Type} [DecidableEq K] [Inhabited K] {rt : Runtime K} {acts as : List (Action K)}
  {w w' : World K} {ws : List (World K)} {id : ℕ} {c : Config K} {l l' : Lottery K}
  {p : Participant K} {r r' : Round K} {payer : K}

namespace Round

/-- Only `FinalizeNoAttesters` settles a lottery with a reveal missing, and only after the
remediation ran out. -/
theorem Invariant.expired_of_step (hi : r.Invariant rt) (hs : r.Step rt r')
    (hset : r.lottery.settled = false) (hset' : r'.lottery.settled = true)
    (hmiss : r'.lottery.hasMissingAttestedReveals = true) :
    r'.lottery.remediationExpired r'.now = true := by
  have hsame {P : Prop} (h : r'.lottery.settled = r.lottery.settled) : P :=
    absurd (h.symm.trans hset') (by simp [hset])
  have hsealed {P : Prop} (h : r.books.Sealed) : P :=
    absurd ((h.step hi.books hs.books).1.no_missing.symm.trans hmiss) (by decide)
  cases hs with
  | refl => exact hsame rfl
  | tick => exact hsame rfl
  | reconfigure => exact hsame rfl
  | deposit => exact hsame rfl
  | buyFirst => exact hsame rfl
  | buyMore => exact hsame rfl
  | beginReveal _ _ _ _ _ _ _ _ _ hopen =>
    obtain rfl := BeginRevealPhase.openWindow_ok hopen
    apply hsame
    rw [BeginRevealPhase.autoComplete_eq]
  | attestUploaded =>
    apply hsame
    rw [Lottery.countAttestation_eq]
  | attestReveal _ _ _ _ _ _ _ hrec _ _ hconc =>
    obtain ⟨-, rfl⟩ := AttestReveal.recordReveal_ok hrec
    obtain rfl := AttestReveal.conclude_ok hconc
    exact hsame rfl
  | uploadReveals hadmit _ _ hinc =>
    obtain ⟨-, -, -, -, -, -, -, rfl⟩ := UploadReveals.checkPhase_ok hadmit
    obtain ⟨-, rfl⟩ := UploadReveals.includeUploads_ok hinc
    exact hsame rfl
  | beginRemediation _ _ _ _ _ _ hrem =>
    obtain ⟨-, rfl⟩ | ⟨-, rfl⟩ := Lottery.beginRemediation_ok hrem
    all_goals exact hsame rfl
  | aggregate hf => exact hsealed hf.sealed
  | select => exact hsame rfl
  | selectLast hf => exact hsealed hf.sealed
  | payBatch hpays => exact hsealed (hi.routed.sealed_of_ledger (hi.routed.won hpays.winners_pos))
  | payLast hpays => exact hsealed (hi.routed.sealed_of_ledger (hi.routed.won hpays.winners_pos))
  | finalizeNoAttesters _ _ hway =>
    rcases hway with hnone | hexp
    · exact absurd hnone (Lottery.hasMissing_eq_true.mp hmiss).1.ne'
    · exact hexp
  | claimRefund hns => simp [hset] at hns
  | closeRefundVault hns => simp [hset] at hns

theorem expired_of_settled (h : (machine rt).Reachable r) (hset : r.lottery.settled = true)
    (hmiss : r.lottery.hasMissingAttestedReveals = true) :
    r.lottery.remediationExpired r.now = true := by
  have hall := reachable_invariant (P := fun r ↦ r.lottery.settled = true →
    r.lottery.hasMissingAttestedReveals = true → r.lottery.remediationExpired r.now = true) h ?_ ?_
  · exact hall hset hmiss
  · intro r hcreated hset _
    obtain ⟨id, config, authority, vault, bump, bps, price, hnew, -⟩ := hcreated.lottery
    obtain ⟨-, -, -, -, -, -, -, -, -, -, -, -, -, -, hno, -⟩ := Lottery.new_ok hnew
    exact absurd (hno.symm.trans hset) (by decide)
  · intro r r' hreach ih hs hset' hmiss'
    have hi := invariant hreach
    cases hset : r.lottery.settled with
    | false => exact hi.expired_of_step hs hset hset' hmiss'
    | true =>
      have hnow := (Onward.of_step hi.books hs).now
      have hexp {l : Lottery K} (hl : r'.lottery = l)
          (hm : l.hasMissingAttestedReveals = r.lottery.hasMissingAttestedReveals)
          (hd : l.remediationDeadlineUnix = r.lottery.remediationDeadlineUnix) :
          r'.lottery.remediationExpired r'.now = true := by
        rw [hl, hm] at hmiss'
        obtain ⟨⟨hpos, hlt⟩, -⟩ := Lottery.remediationExpired_eq_true.mp (ih hset hmiss')
        rw [hl, Lottery.remediationExpired_eq_true, hd, hm]
        exact ⟨⟨hpos, hlt.trans_le hnow⟩, hmiss'⟩
      rcases (hi.rests hset hs).lottery with hl | ⟨-, hl⟩
      · exact hexp hl rfl rfl
      · exact hexp hl rfl rfl

theorem elapsed_of_late (h : (machine rt).Reachable r) (htwo : 2 ≤ r.lottery.participantsCount)
    (hlt : r.lottery.uploadDeadlineUnix < r.now) : r.lottery.uploadElapsed r.now = true := by
  have htime := (invariant h).books.timely
  have hopened : 0 < r.lottery.buyStartUnix := htime.opened (by
    change 0 < r.lottery.participantsCount
    omega)
  have hbuy : r.lottery.buyStartUnix < r.lottery.uploadDeadlineUnix := htime.buy_lt
  exact Lottery.uploadElapsed_eq_true.mpr ⟨by omega, hlt⟩

/-- While a reveal is missing and can still be brought, the lottery is on its way to the uploads. -/
theorem open_of_missing (h : (machine rt).Reachable r) (htwo : 2 ≤ r.lottery.participantsCount)
    (hlt : r.lottery.uploadDeadlineUnix < r.now)
    (hmiss : r.lottery.hasMissingAttestedReveals = true)
    (hexp : r.lottery.remediationExpired r.now = false) : r.lottery.settled = false ∧
      r.lottery.uploadElapsed r.now = true ∧ r.lottery.route r.now = .uploads := by
  refine ⟨?_, elapsed_of_late h htwo hlt, Lottery.route_uploads_iff.mpr ⟨hmiss, hexp⟩⟩
  rw [Bool.eq_false_iff]
  intro hset
  exact absurd (hexp.symm.trans (expired_of_settled h hset hmiss)) (by decide)

end Round

/-- Whatever the provider does, a participant can attest with its reveal while the window lasts, and
after it anybody can bring the reveals the provider kept back. -/
theorem reveals_uncensored (h : (system rt).History acts (w :: ws))
    (hc : (w.accounts rt.configKey).data = .config c)
    (hl : (w.view rt id .lottery).data = .lottery l) (htwo : 2 ≤ l.participantsCount) :
    (∀ p vote plaintext, (w.view rt id (.participant p.wallet)).data = .participant p →
      l.phase w.clock = .upload → p.attestedUploaded = false →
      1 ≤ vote → vote ≤ c.effectiveMaxWinners l.participantsCount →
      plaintext ≠ [] → plaintext.length ≤ maxRevealPlaintextBytes →
      rt.sha256 plaintext = p.proofOfChanceHash →
      TallyReady rt id w p.wallet (c.effectiveMaxWinners l.participantsCount) →
        ∃ w' l', Step rt w (.instruction [] (.attestReveal vote plaintext)
          (AttestReveal.accounts rt id p.wallet)) w' ∧
          AttestReveal.Attests rt id w w' p vote l l') ∧
    ∀ uploader entries, l.uploadDeadlineUnix < w.clock → l.hasMissingAttestedReveals = true →
      l.remediationExpired w.clock = false →
      (l.remediationStartUnix = 0 → w.clock + Sizes.defaultRemediationWindowSecs < 2 ^ 63) →
      rt.Foreign uploader → uploader ≠ c.authority → entries ≠ [] →
      TallyReady rt id w uploader (c.effectiveMaxWinners l.participantsCount) →
      (entries.map Prod.fst).Nodup → (∀ e ∈ entries, e.2.length ≤ maxRevealPlaintextBytes) →
      (∀ e ∈ entries, ∃ p, Answers rt id (w.view rt id) e p) →
        ∃ w' l', Step rt w (.instruction [] (.uploadReveals entries)
            (UploadReveals.accounts rt id uploader entries)) w' ∧
          (w'.view rt id .lottery).data = .lottery l' ∧
          includedIn rt id w' = includedIn rt id w ∪
            {wallet | rt.slotKey id (.participant wallet) ∈ entries.map Prod.fst} ∧
          l'.remediationStartUnix =
            if l.remediationStartUnix = 0 then w.clock else l.remediationStartUnix := by
  refine ⟨fun p vote plaintext hp hphase hfresh hvote hle hne hlen hhash hready ↦ ?_,
    fun uploader entries hlt hmiss hexp hroom hf hstranger _ hready hnd hlen hans ↦ ?_⟩
  · exact AttestReveal.exists_step h hc hl hp hphase hfresh hvote hle hne hlen hhash hready
  · obtain ⟨r, hreach, -, hr, rfl, -⟩ := represented h hl
    rw [hr.now] at hlt hexp
    obtain ⟨hset, hel, hway⟩ := Round.open_of_missing hreach htwo hlt hmiss hexp
    rw [← hr.now] at hel hway
    obtain ⟨w', l', hs, hl', hinc, hrem⟩ := UploadReveals.taken h hc hl htwo hset hel hway hroom hf
      hready hnd hlen hans
    refine ⟨w', l', hs, hl', hinc, ?_⟩
    rw [hrem]
    simp only [ne_eq, hstranger, not_false_eq_true, true_and]

namespace Sample

def kept : List (Key × Bytes) := [(participantKey 1 20, reveal 20)]

theorem kept_nodup : (kept.map Prod.fst).Nodup := List.nodup_singleton _

theorem kept_length : ∀ e ∈ kept, e.2.length ≤ maxRevealPlaintextBytes :=
  List.forall_mem_singleton.mpr (by decide)

/-- The window is over, the reveal of wallet 20 is missing, and wallet 5, no authority, can bring
it. -/
def late (w : World Key) (l : Lottery Key) : Bool :=
  decide (2 ≤ l.participantsCount ∧ l.uploadDeadlineUnix < w.clock ∧
    l.hasMissingAttestedReveals = true ∧ l.remediationExpired w.clock = false) && missing w 20 &&
  ((AccountType.unwrap (w.accounts Sample.rt.configKey).data : Option (Config Key)).any
    fun (c : Config Key) ↦ decide (Key.wallet 5 ≠ c.authority) && funds w c 5 l.participantsCount)

theorem late_ok {w : World Key} {l : Lottery Key} (h : late w l = true) :
    ∃ c, (w.accounts Sample.rt.configKey).data = .config c ∧ (2 ≤ l.participantsCount ∧
      l.uploadDeadlineUnix < w.clock ∧ l.hasMissingAttestedReveals = true ∧
      l.remediationExpired w.clock = false) ∧ Key.wallet 5 ≠ c.authority ∧
      TallyReady Sample.rt 1 w (.wallet 5) (c.effectiveMaxWinners l.participantsCount) ∧
      ∀ e ∈ kept, ∃ p, Answers Sample.rt 1 (w.view Sample.rt 1) e p := by
  simp only [late, Bool.and_eq_true, decide_eq_true_eq, Option.any_eq_true] at h
  obtain ⟨⟨hlot, hmiss⟩, c, hc, hstranger, hfunds⟩ := h
  exact ⟨c, unwrap_config.mp hc, hlot, hstranger, tallyReady_of_funds hfunds,
    List.forall_mem_singleton.mpr (answers_of_missing hmiss)⟩

end Sample

/-- Wallet 20 reveals in the window, and wallet 5 after it. -/
theorem reveals_uncensored_sample : ∃ w₁ w₁' w₂ w₂' : World Sample.Key,
    Step Sample.rt w₁ (.instruction [] (.attestReveal 1 (Sample.reveal 20))
      (AttestReveal.accounts Sample.rt 1 (.wallet 20))) w₁' ∧
    Step Sample.rt w₂ (.instruction [] (.uploadReveals Sample.kept)
      (UploadReveals.accounts Sample.rt 1 (.wallet 5) Sample.kept)) w₂' := by
  obtain ⟨w₁, ws₁, l₁, h₁, hl₁, hp₁⟩ := Sample.run_lottery Sample.bought 1 (fun w l ↦
    decide (l.participantsCount = 2 ∧ l.phase w.clock = .upload) &&
    decide ((w.view Sample.rt 1 .voteTally).lamports = 0) &&
    ((AccountType.unwrap (w.view Sample.rt 1 (.participant (.wallet 20))).data :
      Option (Participant Sample.Key)).any fun (p : Participant Sample.Key) ↦
        decide (p.attestedUploaded = false)) &&
    ((AccountType.unwrap (w.accounts Sample.rt.configKey).data : Option (Config Sample.Key)).any
      fun (c : Config Sample.Key) ↦ decide (1 ≤ c.effectiveMaxWinners 2) && Sample.commits w c 20))
    (by decide +kernel)
  simp only [Bool.and_eq_true, decide_eq_true_eq, Option.any_eq_true] at hp₁
  obtain ⟨⟨⟨⟨hpc, hphase⟩, hz⟩, p, hp, hfresh⟩, c₁, hc₁, heff, hcommits⟩ := hp₁
  obtain ⟨q, hq, hwallet, hhash, hready₁⟩ := Sample.commits_ok hcommits hz
  cases hq.symm.trans (unwrap_participant.mp hp)
  rw [← hwallet] at hq hready₁
  rw [← hpc] at heff hready₁
  obtain ⟨w₂, ws₂, l₂, h₂, hl₂, hp₂⟩ := Sample.run_lottery Sample.awaiting 1 (fun w l ↦
    Sample.late w l && decide (w.clock + Sizes.defaultRemediationWindowSecs < 2 ^ 63))
    (by decide +kernel)
  obtain ⟨hlate, hroom⟩ := Bool.and_eq_true_iff.mp hp₂
  obtain ⟨c₂, hc₂, ⟨htwo, hlt, hmiss, hexp⟩, hstranger, hready₂, hans⟩ := Sample.late_ok hlate
  obtain ⟨w₁', -, hs₁, -⟩ := (reveals_uncensored h₁ (unwrap_config.mp hc₁) hl₁ hpc.ge).1 _ 1
    (Sample.reveal 20) hq hphase hfresh le_rfl heff (by decide) (by decide) hhash hready₁
  obtain ⟨w₂', -, hs₂, -⟩ := (reveals_uncensored h₂ hc₂ hl₂ htwo).2 (.wallet 5) Sample.kept hlt
    hmiss hexp (fun _ ↦ of_decide_eq_true hroom) (Sample.foreign_of_isWallet _ rfl) hstranger
    (List.cons_ne_nil _ _) hready₂ Sample.kept_nodup Sample.kept_length hans
  rw [hwallet] at hs₁
  exact ⟨w₁, w₁', w₂, w₂', hs₁, hs₂⟩

/-- At the last clock value of an `i64` the remediation window has no end, and nobody but the
authority can bring a reveal. -/
theorem reveals_refused_at_end :
    ∃ (acts : List (Action Sample.Key)) (w : World Sample.Key) (ws : List (World Sample.Key))
      (l : Lottery Sample.Key) (c : Config Sample.Key) (entries : List (Sample.Key × Bytes)),
      (system Sample.rt).History acts (w :: ws) ∧
      (w.accounts Sample.rt.configKey).data = .config c ∧
      (w.view Sample.rt 1 .lottery).data = .lottery l ∧ 2 ≤ l.participantsCount ∧
      l.uploadDeadlineUnix < w.clock ∧ l.hasMissingAttestedReveals = true ∧
      l.remediationExpired w.clock = false ∧ Sample.Key.wallet 5 ≠ c.authority ∧ entries ≠ [] ∧
      TallyReady Sample.rt 1 w (.wallet 5) (c.effectiveMaxWinners l.participantsCount) ∧
      (entries.map Prod.fst).Nodup ∧ (∀ e ∈ entries, e.2.length ≤ maxRevealPlaintextBytes) ∧
      (∀ e ∈ entries, ∃ p, Answers Sample.rt 1 (w.view Sample.rt 1) e p) ∧
      ∀ w', ¬Step Sample.rt w (.instruction [] (.uploadReveals entries)
        (UploadReveals.accounts Sample.rt 1 (.wallet 5) entries)) w' := by
  obtain ⟨w, ws, l, h, hl, hp⟩ := Sample.run_lottery (Sample.awaiting ++ [.tick (2 ^ 63 - 1)]) 1
    (fun w l ↦ Sample.late w l && (exec Sample.rt Sample.Key.isWallet w (.instruction []
      (.uploadReveals Sample.kept) (UploadReveals.accounts Sample.rt 1 (.wallet 5)
        Sample.kept))).isNone)
    (by decide +kernel)
  obtain ⟨hlate, hnone⟩ := Bool.and_eq_true_iff.mp hp
  obtain ⟨c, hc, ⟨htwo, hlt, hmiss, hexp⟩, hstranger, hready, hans⟩ := Sample.late_ok hlate
  refine ⟨_, w, ws, l, c, Sample.kept, h, hc, hl, htwo, hlt, hmiss, hexp, hstranger,
    List.cons_ne_nil _ _, hready, Sample.kept_nodup, Sample.kept_length, hans, ?_⟩
  intro w' hs
  have hsome := step_exec Sample.derived_of_not_isWallet hs
  rw [Option.isNone_iff_eq_none.mp hnone] at hsome
  cases hsome

end DailyLottery
