import MetaFilogic.Nmbm.SignatureSearch
import MetaFilogic.Nmbm.MtdImages

/-!
# Finding a signature that was written

A block that `nmbm_write_signature` reports begins with the signature, so a search that gets as far
as this block finds it if the block can still be read.  Whether the search gets that far depends on
the two limits only: where they are too far apart, a chip with a single good block between them has
its signature where the search does not look.
-/

namespace MetaFilogic.Nmbm

open Bytes

variable {ld : LowerDevice} {limit ba : Nat} {state : State}

/-! ## Reading a signature back -/

variable {data : List Byte} {addr pages : Nat}

theorem writeRepeatedPages_spec (fits : data.length ≤ ld.writesize) (positive : 0 < ld.writesize)
    (aligned : addr % ld.writesize = 0) (state : State) :
    Ensures (writeRepeatedPages ld data addr pages) state fun success after =>
      (∀ page, page < ld.pageOf addr → after.flash.page page = state.flash.page page) ∧
        (success = true → 0 < pages → ld.bytesAt after.flash addr data.length = data) := by
  induction pages generalizing addr state with
  | zero => exact .pure ⟨fun _ _ => rfl, fun _ none => absurd none (lt_irrefl 0)⟩
  | succ pages ih =>
    have next : ld.pageOf (addr + ld.writesize) = ld.pageOf addr + 1 :=
      Nat.add_div_right addr positive
    have nextAligned : (addr + ld.writesize) % ld.writesize = 0 := by
      rw [Nat.add_mod_right, aligned]
    unfold writeRepeatedPages
    refine .modifyNi_bind (.getNi_bind ?_)
    refine (writePhysPage_spec addr _ none .placeOob _).bind fun success written both => ?_
    obtain ⟨others, stored⟩ := both
    have below (page : Nat) (low : page < ld.pageOf addr) :
        written.flash.page page = state.flash.page page := others page low.ne
    refine .ite (fun _ => .pure ⟨below, by simp⟩) fun done => ?_
    refine (flash_of_touches ld (fun _ => touches_readPhysPage _ _) written).bind
      fun result read same => ?_
    refine .modifyNi_bind (.ite (fun _ => .pure ⟨same ▸ below, by simp⟩) fun _ => ?_)
    refine .ite (fun _ => .pure ⟨same ▸ below, by simp⟩) fun _ => ?_
    refine (ih nextAligned _).mono fun again after rest => ⟨fun page low => ?_, fun _ _ => ?_⟩
    · rw [rest.1 page (by omega), same, below page low]
    · have page : (after.flash.page (ld.pageOf addr)).data =
          data ++ fill (ld.writesize - data.length) 0xff := by
        rw [rest.1 _ (by omega), same, stored (by simpa using done)]
      have whole : ld.writesize ≤ (data ++ fill (ld.writesize - data.length) 0xff).length := by
        simp [fill]
        omega
      rw [bytesAt_aligned after.flash positive aligned fits, LowerDevice.sized, page]
      dsimp only
      rw [List.takeD_eq_take _ whole, List.take_take, min_eq_left fits, List.take_left]

section Stored

variable (sound : ld.Sound)

include sound

theorem ba2addr_aligned (ba : Nat) : ld.ba2addr ba % ld.writesize = 0 := by
  rw [sound.ba2addr_eq, ← sound.pages_mul, ← Nat.mul_assoc, Nat.mul_mod_left]

theorem writeSignatureLoop_stored {signature : List Byte} {blocks ba : Nat} (state : State) :
    Ensures (writeSignatureLoop ld signature blocks ba) state fun found after =>
      ∀ block ∈ found, signature.length ≤ ld.writesize ∧
        ld.bytesAt after.flash (ld.ba2addr block) signature.length = signature := by
  induction blocks generalizing ba state with
  | zero => exact .pure (by simp)
  | succ blocks ih =>
    unfold writeSignatureLoop
    refine .getNi_bind (.ite (fun _ => ih state) fun _ => ?_)
    refine Ensures.bind (.of_true _ _) fun bad checked _ => .ite (fun _ => ?_) fun _ => ?_
    · exact Ensures.bind (.of_true _ _) fun _ middle _ => ih middle
    refine Ensures.bind (.of_true _ _) fun erased blank _ => .ite (fun _ => ?_) fun _ => ?_
    · exact Ensures.bind (.of_true _ _) fun _ middle _ => ih middle
    have written : Ensures (writeRepeatedData ld ba signature) blank fun success after =>
        success = true → signature.length ≤ ld.writesize ∧
          ld.bytesAt after.flash (ld.ba2addr ba) signature.length = signature := by
      unfold writeRepeatedData
      refine .ite (fun _ => .pure (by simp)) fun fits => ?_
      exact (writeRepeatedPages_spec (by omega) sound.writesize_pos (ba2addr_aligned sound ba)
        blank).mono fun success after done success =>
          ⟨by omega, done.2 success sound.pages_pos⟩
    refine written.bind fun success after stored => .ite (fun done => .pure ?_) fun _ => ?_
    · intro block found
      obtain rfl := Option.some.inj found
      exact stored done
    · exact Ensures.bind (.of_true _ _) fun _ middle _ => ih middle

/-- The block can still be read: whenever it is asked for, it is not reported as bad and its
first page is delivered. -/
def StillReadable (ld : LowerDevice) (flash : Flash) (ba : Nat) : Prop :=
  ∀ state : State, state.flash = flash → (checkBadPhysBlock ld ba state).1 = false ∧
    0 ≤ (readPhysPage ld (ld.ba2addr ba) .placeOob state).1.1

/-- A signature that `nmbm_find_signature` recognises. -/
def Signature.Recognised (sig : Signature) : Prop :=
  checkHeader sig.bytes signatureSize = true ∧ sig.header.magic = NMBM_MAGIC_SIGNATURE

omit sound in
theorem get32_append_le32 {front rest : List Byte} {off : Nat} (word : BitVec 32)
    (length : front.length = off) : get32 (front ++ (le32 word ++ rest)) off = word := by
  subst length
  exact (get32_append_right front _ 0).trans (get32_le32_append word rest)

omit sound in
theorem Signature.parse_bytes (sig : Signature) : Signature.parse sig.bytes = sig := by
  have header : Header.parse sig.bytes = sig.header := Header.parse_bytes sig.header
  have upTo (front : List Byte) (word : BitVec 32) (rest : List Byte) (off : Nat)
      (parts : sig.bytes = front ++ (le32 word ++ rest)) (length : front.length = off) :
      get32 sig.bytes off = word := parts ▸ get32_append_le32 word length
  have low := upTo sig.header.bytes (sig.nandSize.extractLsb' 0 32) _ 16
    (by simp only [Signature.bytes, le64, List.append_assoc]; rfl) (Header.bytes_length _)
  have high := upTo (sig.header.bytes ++ le32 (sig.nandSize.extractLsb' 0 32))
    (sig.nandSize.extractLsb' 32 32) _ 20
    (by simp only [Signature.bytes, le64, List.append_assoc]; rfl) rfl
  have nandSize : get64 sig.bytes 16 = sig.nandSize := by
    rw [get64, low, high]
    exact (BitVec.extractLsb'_append_extractLsb'_eq_extractLsb' (by decide)).trans
      BitVec.extractLsb'_eq_self
  have blockSize := upTo (sig.header.bytes ++ le64 sig.nandSize) sig.blockSize _ 24
    (by simp only [Signature.bytes, List.append_assoc]; rfl) rfl
  have pageSize := upTo (sig.header.bytes ++ le64 sig.nandSize ++ le32 sig.blockSize)
    sig.pageSize _ 28 (by simp only [Signature.bytes, List.append_assoc]; rfl) rfl
  have spareSize := upTo (sig.header.bytes ++ le64 sig.nandSize ++ le32 sig.blockSize ++
    le32 sig.pageSize) sig.spareSize _ 32
    (by simp only [Signature.bytes, List.append_assoc]; rfl) rfl
  have start := upTo (sig.header.bytes ++ le64 sig.nandSize ++ le32 sig.blockSize ++
    le32 sig.pageSize ++ le32 sig.spareSize) sig.mgmtStartPb _ 36
    (by simp only [Signature.bytes, List.append_assoc]; rfl) rfl
  have tries : get8 sig.bytes 40 = sig.maxTryCount := rfl
  simp only [Signature.parse, header, nandSize, blockSize, pageSize, spareSize, start, tries]

omit sound in
theorem Signature.bytes_length (sig : Signature) : sig.bytes.length = signatureSize := by
  simp [Signature.bytes, Header.bytes_length, signatureSize]

omit sound in
theorem Signature.bytes_drop (sig : Signature) (header : Header) :
    { sig with header }.bytes.drop headerSize = sig.bytes.drop headerSize := by
  have split (header : Header) (rest : List Byte) : (header.bytes ++ rest).drop headerSize = rest :=
    List.drop_left' (Header.bytes_length header)
  simp only [Signature.bytes, List.append_assoc, split]

omit sound in
theorem Signature.parse_header (sig : Signature) : Header.parse sig.bytes = sig.header :=
  Header.parse_bytes sig.header

variable {sig : Signature}

omit sound in
theorem Signature.recognised_of (magic : sig.header.magic = NMBM_MAGIC_SIGNATURE)
    (size : sig.header.size = BitVec.ofNat 32 signatureSize) (checksum : sig.header.checksum =
      nmbmCrc32 0 { sig with header := { sig.header with checksum := 0 } }.bytes) :
    sig.Recognised := by
  have width : sig.header.size.toNat = signatureSize := by
    rw [size]
    rfl
  have rest := sig.bytes_drop { sig.header with checksum := 0 }
  generalize is : ({ sig with header := { sig.header with checksum := 0 } } : Signature) = cleared
    at checksum rest
  have clearedHeader : cleared.header = { sig.header with checksum := 0 } := by rw [← is]
  have long : headerSize ≤ cleared.bytes.length := by
    rw [Signature.bytes_length]
    decide
  have parts := nmbmCrc32_parts long
  rw [Signature.bytes_length, cleared.parse_header, clearedHeader, rest, ← checksum] at parts
  refine ⟨?_, magic⟩
  rw [checkHeader, sig.parse_header]
  dsimp only
  rw [width, parts, if_neg (lt_irrefl _), beq_self_eq_true]

omit sound in
theorem newSignature_recognised (mgmtStartBa : Nat) : (newSignature ld mgmtStartBa).Recognised :=
  Signature.recognised_of rfl rfl rfl

theorem nmbnReadData_readable {size : Nat} (some : 0 < size) (fits : size ≤ ld.writesize)
    (read : 0 ≤ (readPhysPage ld (ld.ba2addr ba) .placeOob state).1.1) :
    Ensures (nmbnReadData ld (ld.ba2addr ba) size) state fun result _ =>
      result = (0, ld.bytesAt state.flash (ld.ba2addr ba) size) := by
  have aligned := ba2addr_aligned sound ba
  obtain ⟨rounds, rfl⟩ := Nat.exists_eq_succ_of_ne_zero some.ne'
  have content := @nmbnReadDataLoop_spec ld (ld.ba2addr ba) sound rounds.succ rounds.succ [] state
    le_rfl
  have success : Ensures (nmbnReadData ld (ld.ba2addr ba) rounds.succ) state
      fun result _ => result.1 = 0 := by
    unfold nmbnReadData nmbnReadDataLoop
    refine .ite (fun none => absurd none (Nat.succ_ne_zero rounds)) fun _ => ?_
    rw [sound.and_writesizeMask, aligned]
    dsimp only
    rw [Nat.sub_zero, Nat.sub_zero, min_eq_right fits]
    have delivered : Ensures (readPhysPage ld (ld.ba2addr ba) .placeOob) state
      fun result _ => 0 ≤ result.1 := read
    refine delivered.bind fun result middle delivered => ?_
    have rest (state : State) : Ensures (nmbnReadDataLoop ld rounds
        (ld.ba2addr ba + rounds.succ) (rounds.succ - rounds.succ)
          ([] ++ (result.2.data.drop 0).take rounds.succ)) state fun result _ => result.1 = 0 := by
      rw [Nat.sub_self]
      cases rounds with
      | zero => exact .pure rfl
      | succ rounds => exact .ite (fun _ => .pure rfl) fun some => absurd rfl some
    refine .ite (fun _ => .modifyNi_bind ?_) fun _ => ?_
    · exact .ite (fun error => absurd error (by omega)) fun _ => rest _
    · exact .ite (fun error => absurd error (by omega)) fun _ => rest _
  refine (success.both content).mono fun result after both => ?_
  exact Prod.ext both.1 (both.2.2.2 both.1).1

theorem lookAt_stored {flash : Flash} (fits : signatureSize ≤ ld.writesize)
    (readable : StillReadable ld flash ba) (recognised : sig.Recognised)
    (stored : ld.bytesAt flash (ld.ba2addr ba) signatureSize = sig.bytes)
    (same : state.flash = flash) : (lookAt ld ba state).1 = some sig := by
  suffices Ensures (lookAt ld ba) state fun found _ => found = some sig from this
  unfold lookAt
  have good : Ensures (checkBadPhysBlock ld ba) state fun bad _ => bad = false :=
    (readable state same).1
  refine (good.both (flash_of_touches ld (fun _ => touches_checkBadPhysBlock ba) state)).bind
    fun bad checked both => .ite (fun bad => ?_) fun _ => ?_
  · rw [both.1] at bad
    cases bad
  obtain ⟨pages, count⟩ := Nat.exists_eq_succ_of_ne_zero sound.pages_pos.ne'
  rw [count, findSignatureInPages]
  have checkedFlash : checked.flash = flash := both.2.trans same
  refine (nmbnReadData_readable sound (by decide) fits (readable checked checkedFlash).2).bind
    fun result after is => ?_
  rw [is, checkedFlash, stored, Signature.parse_bytes]
  exact .ite (fun _ => .pure rfl) fun refused =>
    absurd ⟨rfl, recognised.1, recognised.2⟩ refused

omit sound in
theorem flash_lookAt (ba : Nat) (state : State) : (lookAt ld ba state).2.flash = state.flash := by
  refine flash_of_touches ld (fun region => ?_) state
  unfold lookAt
  exact (touches_checkBadPhysBlock ba).bind fun bad =>
    .ite (fun _ => .pure _) fun _ => touches_findSignatureInPages _ _

omit sound in
theorem findSignatureLoop_finds {flash : Flash} {block above : Nat} (low : limit ≤ block + 1)
    (width : block + 1 + above < 2 ^ 32)
    (looks : ∀ state : State, state.flash = flash → (lookAt ld block state).1 = some sig)
    (same : state.flash = flash) :
    ∃ found place, (findSignatureLoop ld limit (above + 1) (block + 1 + above) state).1 =
      some (some (found, place)) ∧ block ≤ place ∧ (place = block → found = sig) := by
  induction above generalizing state with
  | zero =>
    have here := looks state same
    rw [findSignatureLoop_round (by omega), subU32_one (by omega) width, Nat.add_zero,
      Nat.add_sub_cancel]
    cases run : lookAt ld block state with
    | mk found after =>
      rw [run] at here
      dsimp only at here
      rw [here]
      exact ⟨sig, block, rfl, le_rfl, fun _ => rfl⟩
  | succ above ih =>
    have next : subU32 (block + 1 + (above + 1)) 1 = block + 1 + above :=
      subU32_one (by omega) width
    rw [findSignatureLoop_round (by omega), next]
    have kept := @flash_lookAt ld (block + 1 + above) state
    cases run : lookAt ld (block + 1 + above) state with
    | mk found after =>
      rw [run] at kept
      cases found with
      | none => exact ih (by omega) (kept.trans same)
      | some found => exact ⟨found, _, rfl, by omega, fun is => by omega⟩

end Stored

/-! ## A device without failures -/

theorem writePhysPage_calm_flash {mode : OobMode} (calm : Calm ld state)
    (writable : state.ni.flags.readOnly = false) (inside : addr < ld.size) :
    Ensures (writePhysPage ld addr (some data) none mode) state fun success after =>
      success = true ∧ after = { state with
        flash := LowerDevice.setPage state.flash (ld.pageOf addr)
          ⟨data, (state.flash.page (ld.pageOf addr)).oob⟩
        clock := state.clock + 1
        trace := after.trace } := by
  have now : ld.fault state.clock = {} := calm _ le_rfl
  have run : lowerWritePage ld addr (some data) none mode state = (0, { state with
      flash := LowerDevice.setPage state.flash (ld.pageOf addr)
        ⟨data, (state.flash.page (ld.pageOf addr)).oob⟩
      clock := state.clock + 1
      trace := .program (ld.blockOf addr) (LowerDevice.setPage state.flash (ld.pageOf addr)
        ⟨data, (state.flash.page (ld.pageOf addr)).oob⟩) :: state.trace }) := by
    rw [lowerWritePage_run, if_neg (Nat.not_le.mpr inside), now]
    rfl
  suffices writePhysPage ld addr (some data) none mode state =
      (true, (lowerWritePage ld addr (some data) none mode state).2) by
    rw [Ensures, this, run]
    exact ⟨rfl, rfl⟩
  rw [writePhysPage, getNi_run, if_neg (by simp [writable]), NMBM_TRY_COUNT, retry, bind_run, run]
  rfl

theorem erasePhysBlock_calm (calm : Calm ld state) (writable : state.ni.flags.readOnly = false)
    (inside : addr < ld.size) :
    Ensures (erasePhysBlock ld addr) state fun success after =>
      success = true ∧ after = { state with
        flash := ld.setBlock state.flash (ld.blockOf addr) fun _ => ld.erasedPage
        clock := state.clock + 1
        trace := after.trace } := by
  have now : ld.fault state.clock = {} := calm _ le_rfl
  have run : lowerEraseBlock ld addr state = (0, { state with
      flash := ld.setBlock state.flash (ld.blockOf addr) fun _ => ld.erasedPage
      clock := state.clock + 1
      trace := .erase (ld.blockOf addr)
        (ld.setBlock state.flash (ld.blockOf addr) fun _ => ld.erasedPage) :: state.trace }) := by
    rw [lowerEraseBlock, bind_run, bind_run, ite_apply, nextFault]
    dsimp only
    rw [now]
    exact if_neg (Nat.not_le.mpr inside)
  suffices erasePhysBlock ld addr state = (true, (lowerEraseBlock ld addr state).2) by
    rw [Ensures, this, run]
    exact ⟨rfl, rfl⟩
  rw [erasePhysBlock, getNi_run, if_neg (by simp [writable]), NMBM_TRY_COUNT, retry, bind_run, run]
  rfl

theorem checkErasedPages_calm (calm : Calm ld state) (positive : 0 < ld.writesize)
    (inside : addr + pages * ld.writesize ≤ ld.size) :
    Ensures (checkErasedPages ld addr pages) state fun success after =>
      success = true ∧ Calm ld after := by
  induction pages generalizing addr state with
  | zero => exact .pure ⟨rfl, calm⟩
  | succ pages ih =>
    rw [Nat.succ_mul] at inside
    unfold checkErasedPages
    refine (readPhysPage_calm calm .placeOob (by omega)).bind fun result read is => ?_
    obtain ⟨rfl, later⟩ := is
    refine .modifyNi_bind (.ite (fun failed => ?_) fun _ => ih later (by omega))
    exact absurd failed (by decide : ¬(0 : Int) = -EBADMSG)

theorem eraseBlockAndCheck_calm (sound : ld.Sound) (calm : Calm ld state)
    (writable : state.ni.flags.readOnly = false) (inside : ba < ld.blockCount) :
    Ensures (eraseBlockAndCheck ld ba) state fun success after =>
      success = true ∧ Calm ld after ∧
        after.flash = ld.setBlock state.flash ba fun _ => ld.erasedPage := by
  have start : ld.ba2addr ba < ld.size :=
    (sound.ba2addr_lt_size_iff sound.erasesize_pos).mpr inside
  have last : ld.ba2addr ba + (ld.erasesize - 1) < ld.size :=
    (sound.ba2addr_lt_size_iff (Nat.sub_lt sound.erasesize_pos Nat.one_pos)).mpr inside
  unfold eraseBlockAndCheck
  refine (erasePhysBlock_calm calm writable start).bind fun success after erased => ?_
  obtain ⟨rfl, is⟩ := erased
  have later : Calm ld after := calm.next (by rw [is]; exact Nat.le_succ _)
  have flash : after.flash = ld.setBlock state.flash ba fun _ => ld.erasedPage := by
    rw [is, sound.blockOf_ba2addr]
  refine .ite (fun failed => absurd failed (by decide)) fun _ => .getNi_bind ?_
  refine .ite (fun _ => .pure ⟨rfl, later, flash⟩) fun _ => ?_
  have pages := sound.pages_mul
  refine ((checkErasedPages_calm later sound.writesize_pos (by omega)).both
    (flash_of_touches ld (fun _ => touches_checkErasedPages _ _) after)).mono
      fun _ checked both => ?_
  exact ⟨both.1.1, both.1.2, both.2.trans flash⟩

/-- Writing a repeated page leaves the bad-block marks and the spare bytes alone. -/
theorem writeRepeatedPages_calm (fits : data.length ≤ ld.writesize) (calm : Calm ld state)
    (positive : 0 < ld.writesize) (writable : state.ni.flags.readOnly = false)
    (inside : addr + pages * ld.writesize ≤ ld.size) :
    Ensures (writeRepeatedPages ld data addr pages) state fun success after =>
      success = true ∧ Calm ld after ∧ after.flash.bad = state.flash.bad ∧
        ∀ page, (after.flash.page page).oob = (state.flash.page page).oob := by
  induction pages generalizing addr state with
  | zero => exact .pure ⟨rfl, calm, rfl, fun _ => rfl⟩
  | succ pages ih =>
    rw [Nat.succ_mul] at inside
    have here : addr < ld.size := by omega
    unfold writeRepeatedPages
    refine .modifyNi_bind (.getNi_bind ?_)
    let cached : State := { state with
      ni := { state.ni with
        pageCache := ⟨data ++ fill (ld.writesize - data.length) 0xff, fill ld.oobsize 0xff⟩ } }
    have start : Calm ld cached := calm
    refine (writePhysPage_calm_flash start writable here).bind fun success after written => ?_
    obtain ⟨rfl, is⟩ := written
    refine .ite (fun failed => absurd failed (by decide)) fun _ => ?_
    have later : Calm ld after := start.next (by rw [is]; exact Nat.le_succ _)
    have stored : (after.flash.page (ld.pageOf addr)).data =
        data ++ fill (ld.writesize - data.length) 0xff := by
      rw [is]
      simp [LowerDevice.setPage]
    have bad : after.flash.bad = state.flash.bad := by
      rw [is]
      rfl
    have spare (page : Nat) : (after.flash.page page).oob = (state.flash.page page).oob := by
      rw [is]
      simp only [LowerDevice.setPage]
      split
      · next same => rw [same]
      · rfl
    have afterWritable : after.ni.flags.readOnly = false := by
      rw [is]
      exact writable
    have sameFlash := flash_of_touches ld
      (fun _ => @touches_readPhysPage ld _ addr .placeOob) after
    have sameFlags : Ensures (readPhysPage ld addr .placeOob) after fun _ read =>
        read.ni.flags = after.ni.flags :=
      (@touches_readPhysPage ld Anywhere addr .placeOob after).flags
    refine (((readPhysPage_calm later .placeOob here).both sameFlash).both sameFlags).bind
      fun result read all => ?_
    obtain ⟨⟨⟨rfl, readLater⟩, flash⟩, flags⟩ := all
    refine .modifyNi_bind (.ite (fun failed => absurd failed (lt_irrefl 0)) fun _ => ?_)
    have whole : ld.writesize ≤ (data ++ fill (ld.writesize - data.length) 0xff).length := by
      simp [fill]
      omega
    refine .ite (fun differs => absurd ?_ differs) fun _ => ?_
    · rw [LowerDevice.sized, stored]
      dsimp only
      rw [List.takeD_eq_take _ whole, List.take_take, min_eq_left fits, List.take_left]
    · have rest : addr + ld.writesize + pages * ld.writesize ≤ ld.size := by omega
      refine Ensures.mono (ih ?_ ?_ rest) fun _ final done => ?_
      · exact readLater
      · exact flags ▸ afterWritable
      refine ⟨done.1, done.2.1, done.2.2.1.trans ?_, fun page => (done.2.2.2 page).trans ?_⟩
      · rw [flash, bad]
      · rw [flash, spare]

theorem writeSignatureLoop_skips {signature : List Byte} {count blocks : Nat}
    (skipped : ∀ block, ba - count < block → block ≤ ba →
      state.ni.getBlockState block ≠ BLOCK_ST_GOOD) (within : count ≤ ba) :
    writeSignatureLoop ld signature (count + blocks) ba state =
      writeSignatureLoop ld signature blocks (ba - count) state := by
  induction count generalizing ba with
  | zero => rw [Nat.zero_add, Nat.sub_zero]
  | succ count ih =>
    have rest := @ih (ba - 1) (fun block low high => skipped block (by omega) (by omega))
      (by omega)
    rw [Nat.sub_sub, Nat.add_comm 1 count] at rest
    rw [← rest, Nat.add_right_comm, writeSignatureLoop, getNi_run,
      if_pos (skipped ba (by omega) le_rfl)]

theorem writeSignatureLoop_calm (sound : ld.Sound) {signature : List Byte}
    (fits : signature.length ≤ ld.writesize) {blocks : Nat} (calm : Calm ld state)
    (writable : state.ni.flags.readOnly = false) (inside : ba < ld.blockCount)
    (good : state.ni.getBlockState ba = BLOCK_ST_GOOD) (unmarked : ¬Marked ld state.flash ba) :
    Ensures (writeSignatureLoop ld signature (blocks + 1) ba) state fun found after =>
      found = some ba ∧ after.flash.bad = state.flash.bad ∧ ∀ page,
        (after.flash.page page).oob = if page / ld.pagesPerBlock = ba then ld.erasedPage.oob
          else (state.flash.page page).oob := by
  have pages := sound.pages_mul
  have last : ld.ba2addr ba + (ld.erasesize - 1) < ld.size :=
    (sound.ba2addr_lt_size_iff (Nat.sub_lt sound.erasesize_pos Nat.one_pos)).mpr inside
  unfold writeSignatureLoop
  refine .getNi_bind (.ite (fun bad => absurd good bad) fun _ => ?_)
  have checkFlags : Ensures (checkBadPhysBlock ld ba) state fun _ after =>
      after.ni.flags = state.ni.flags :=
    (@touches_checkBadPhysBlock ld Anywhere ba state).flags
  have checkFlash := flash_of_touches ld (fun _ => @touches_checkBadPhysBlock ld _ ba) state
  refine (((checkBadPhysBlock_calm calm ba).both checkFlash).both checkFlags).bind
    fun bad checked all => ?_
  obtain ⟨⟨⟨marked, checkedCalm⟩, checkedFlash⟩, checkedFlags⟩ := all
  refine .ite (fun bad => absurd (marked.mp bad) unmarked) fun _ => ?_
  have eraseFlags : Ensures (eraseBlockAndCheck ld ba) checked fun _ after =>
      after.ni.flags = checked.ni.flags :=
    (@touches_eraseBlockAndCheck ld Anywhere sound ba trivial checked).flags
  refine ((eraseBlockAndCheck_calm sound checkedCalm (checkedFlags ▸ writable) inside).both
    eraseFlags).bind fun erased blank both => ?_
  obtain ⟨⟨rfl, blankCalm, blankFlash⟩, blankFlags⟩ := both
  refine .ite (fun failed => absurd failed (by decide)) fun _ => ?_
  have written : Ensures (writeRepeatedData ld ba signature) blank fun success after =>
      success = true ∧ Calm ld after ∧ after.flash.bad = blank.flash.bad ∧
        ∀ page, (after.flash.page page).oob = (blank.flash.page page).oob := by
    unfold writeRepeatedData
    refine .ite (fun long => absurd long (by omega)) fun _ => ?_
    refine writeRepeatedPages_calm fits blankCalm sound.writesize_pos ?_ (by omega)
    rw [blankFlags, checkedFlags]
    exact writable
  refine written.bind fun success after done => ?_
  obtain ⟨rfl, _, bad, spare⟩ := done
  refine .ite (fun _ => .pure ⟨rfl, ?_, fun page => ?_⟩) fun failed => absurd rfl failed
  · rw [bad, blankFlash, LowerDevice.setBlock, checkedFlash]
  · rw [spare, blankFlash, LowerDevice.setBlock, checkedFlash]
    dsimp only
    split <;> rfl

theorem findSignatureLoop_marked {flash : Flash} {rounds : Nat}
    (calm : ∀ clock, ld.fault clock = {}) (positive : 0 < limit) (width : ba < 2 ^ 32)
    (marked : ∀ block, limit ≤ block + 1 → block < ba → Marked ld flash block)
    (same : state.flash = flash) (found : Signature × Nat) :
    (findSignatureLoop ld limit rounds ba state).1 ≠ some (some found) := by
  induction rounds generalizing ba state with
  | zero => nofun
  | succ rounds ih =>
    by_cases below : ba < limit
    · rw [findSignatureLoop_stop below]
      nofun
    · have here : (lookAt ld (ba - 1) state).1 = none := by
        suffices Ensures (lookAt ld (ba - 1)) state fun found _ => found = none from this
        unfold lookAt
        refine (checkBadPhysBlock_calm (fun clock _ => calm clock) (ba - 1)).bind
          fun bad checked is => .ite (fun _ => .pure rfl) fun good => ?_
        exact absurd (is.1.mpr (same ▸ marked (ba - 1) (by omega) (by omega))) good
      have kept := @flash_lookAt ld (ba - 1) state
      rw [findSignatureLoop_round below, subU32_one (by omega) width]
      cases run : lookAt ld (ba - 1) state with
      | mk sig after =>
        rw [run] at here kept
        dsimp only at here
        rw [here]
        exact ih (by omega) (fun block low high => marked block low (by omega))
          (kept.trans same)

/-- A flash on which all blocks behind `ba` are marked as bad. -/
def markedBehind (ld : LowerDevice) (ba : Nat) : Flash where
  page page := ⟨[], if ba < page / ld.pagesPerBlock then fill ld.oobsize 0
    else fill ld.oobsize 0xff⟩
  bad block := decide (ba < block)

/-- The driver has recorded block `ba` as good and every other block as bad. -/
def onlyGood (ld : LowerDevice) (ba : Nat) : State :=
  let ni := { initStructure ld ⟨false, false, false⟩ with blockState := fun _ => 0 }
  ⟨ni.setBlockState ba BLOCK_ST_GOOD, markedBehind ld ba, 0, []⟩

theorem marked_iff (sound : ld.Sound) (oob : 0 < ld.oobsize) {flash : Flash}
    (bad : flash.bad = (markedBehind ld ba).bad)
    (spare : ∀ page, (flash.page page).oob = ((markedBehind ld ba).page page).oob) {block : Nat}
    (inside : block < ld.blockCount) : Marked ld flash block ↔ ba < block := by
  have start : ld.ba2addr block < ld.size :=
    (sound.ba2addr_lt_size_iff sound.erasesize_pos).mpr inside
  have page : ld.pageOf (ld.ba2addr block) / ld.pagesPerBlock = block := by
    rw [sound.pageOf_div, sound.blockOf_ba2addr]
  have first (value : Byte) : get8 (fill ld.oobsize value) 0 = value := by
    obtain ⟨count, is⟩ := Nat.exists_eq_succ_of_ne_zero oob.ne'
    rw [is]
    rfl
  rw [Marked, or_iff_right (Nat.not_le.mpr start)]
  split
  · rw [bad, sound.blockOf_ba2addr]
    simp [markedBehind]
  · rw [LowerDevice.sized, spare, markedBehind]
    dsimp only
    rw [page]
    split
    · next high =>
        rw [List.takeD_eq_take _ (by simp [fill]), fill, List.take_replicate, min_self]
        exact iff_of_true (by rw [← fill, first]; decide) high
    · next low =>
        rw [List.takeD_eq_take _ (by simp [fill]), fill, List.take_replicate, min_self]
        exact iff_of_false (by rw [← fill, first]; decide) low

theorem writeSignature_onlyGood (sound : ld.Sound) (oob : 0 < ld.oobsize)
    (faults : ∀ clock, ld.fault clock = {}) (fits : signatureSize ≤ ld.writesize) (sig : Signature)
    (above : limit < ba) (inside : ba < ld.blockCount) :
    Ensures (writeSignature ld limit sig) (onlyGood ld ba) fun found after =>
      found = some ba ∧ after.flash.bad = (markedBehind ld ba).bad ∧
        ∀ page, (after.flash.page page).oob = ((markedBehind ld ba).page page).oob := by
  have blocks := sound.blockCount_lt
  have last : subU32 ld.blockCount 1 = ld.blockCount - 1 := subU32_one (by omega) (by omega)
  have others (block : Nat) (distinct : block ≠ ba) :
      (onlyGood ld ba).ni.getBlockState block ≠ BLOCK_ST_GOOD := by
    rw [onlyGood, Instance.getBlockState_set_other _ _ _ distinct]
    simp [Instance.getBlockState, getBlockStateRaw, BLOCK_ST_GOOD]
  have good : (onlyGood ld ba).ni.getBlockState ba = BLOCK_ST_GOOD := by
    rw [onlyGood, Instance.getBlockState_set_same]
    decide
  have unmarked : ¬Marked ld (onlyGood ld ba).flash ba :=
    mt (marked_iff sound oob rfl (fun _ => rfl) inside).mp (lt_irrefl ba)
  have count : ld.blockCount - 1 - limit = (ld.blockCount - 1 - ba) + ((ba - limit - 1) + 1) := by
    omega
  let noted : State := { onlyGood ld ba with
    trace := .signatureWrite limit sig.bytes :: (onlyGood ld ba).trace }
  have skips : writeSignatureLoop ld sig.bytes (ld.blockCount - 1 - limit) (ld.blockCount - 1)
      noted = writeSignatureLoop ld sig.bytes ((ba - limit - 1) + 1) ba noted := by
    have skipped (block : Nat) (low : ld.blockCount - 1 - (ld.blockCount - 1 - ba) < block)
        (_ : block ≤ ld.blockCount - 1) : noted.ni.getBlockState block ≠ BLOCK_ST_GOOD :=
      others block (by omega)
    rw [count, writeSignatureLoop_skips skipped (by omega), Nat.sub_sub_self (by omega)]
  have quiet : Calm ld noted := fun clock _ => faults clock
  have wrote := @writeSignatureLoop_calm ld ba noted sound sig.bytes
    (sig.bytes_length.trans_le fits) (ba - limit - 1) quiet rfl inside good unmarked
  unfold writeSignature
  rw [last]
  refine .note_bind ?_
  change Ensures (writeSignatureLoop ld sig.bytes (ld.blockCount - 1 - limit)
    (ld.blockCount - 1)) noted _
  rw [Ensures, skips]
  refine ⟨wrote.1, wrote.2.1, fun page => (wrote.2.2 page).trans ?_⟩
  split
  · next here => simp [markedBehind, here, LowerDevice.erasedPage]
  · rfl

/-! ## Signatures that were written -/

theorem writeSignature_stored (sound : ld.Sound) {limit : Nat} (sig : Signature) (state : State) :
    Ensures (writeSignature ld limit sig) state fun found after => ∀ block ∈ found,
      signatureSize ≤ ld.writesize ∧
        ld.bytesAt after.flash (ld.ba2addr block) signatureSize = sig.bytes := by
  unfold writeSignature
  refine .note_bind ((writeSignatureLoop_stored sound _).mono
    fun found after stored block among => ?_)
  have here := stored block among
  rw [sig.bytes_length] at here
  exact here

/-- Where a signature has been written and the block can still be read, `nmbm_find_signature` finds
it, unless it finds one behind it. -/
def FindsWritten (ld : LowerDevice) : Prop :=
  ∀ fault state (sig : Signature) ba written, sig.Recognised →
    writeSignature (ld.behaving fault) ld.mgmtStart sig state = (some ba, written) →
      ∀ other later, later.flash = written.flash →
        StillReadable (ld.behaving other) written.flash ba →
          ∃ rounds found place,
            (findSignature (ld.behaving other) rounds later).1 = some (some (found, place)) ∧
              ba ≤ place ∧ (place = ba → found = sig)

section Written

variable {flags : Flags} (accepted : checkLowerMembers ld flags = true) (sound : ld.Sound)

include accepted sound

theorem findsWritten_of_covers (covers : ld.SearchCovers) : FindsWritten ld := by
  intro fault state sig ba written recognised run other later same readable
  have blocks := sound.blockCount_lt
  have writing := sound.behaving fault
  have placed := (@writeSignature_spec _ writing state ld.mgmtStart sig).both
    (writeSignature_stored writing sig state)
  rw [Ensures, run] at placed
  obtain ⟨⟨_, within⟩, stored⟩ := placed
  obtain ⟨fits, stored⟩ := stored ba rfl
  have inside : ba < ld.blockCount := (within ba rfl).2
  have looks (state : State) (same : state.flash = written.flash) :
      (lookAt (ld.behaving other) ba state).1 = some sig :=
    lookAt_stored (sound.behaving other) fits readable recognised stored same
  have width : ba + 1 + (ld.blockCount - (ba + 1)) < 2 ^ 32 := by omega
  obtain ⟨found, place, finds, behind⟩ :=
    findSignatureLoop_finds (le_refl (ba + 1)) width looks same
  rw [Nat.add_sub_cancel' inside] at finds
  exact ⟨_, found, place, searchesDown accepted covers fault state sig ba written run later other
    _ _ finds, behind⟩

/-- Between the limits a signature is written that the search does not reach: all other blocks are
marked bad. -/
theorem covers_of_findsWritten (fits : signatureSize ≤ ld.writesize) (finds : FindsWritten ld) :
    ld.SearchCovers := by
  by_contra uncovered
  rw [← signatureLimit_le_iff accepted] at uncovered
  have blocks := sound.blockCount_lt
  have limit := signatureLimit_le accepted
  generalize is : ld.mgmtStart + 1 = ba
  have inside : ba < ld.blockCount := by omega
  have oob := accepted_oobsize accepted
  let calm : LowerDevice := ld.behaving fun _ => {}
  have calmSound : calm.Sound := sound.behaving _
  have faults (clock : Nat) : calm.fault clock = {} := rfl
  have wrote := writeSignature_onlyGood calmSound oob faults fits
    (newSignature ld ld.mgmtStart) (show ld.mgmtStart < ba by omega) inside
  cases run : writeSignature calm ld.mgmtStart (newSignature ld ld.mgmtStart)
      (onlyGood calm ba) with
  | mk found written =>
    rw [Ensures, run] at wrote
    obtain ⟨rfl, bad, spare⟩ := wrote
    have marked {block : Nat} (inside : block < ld.blockCount) :
        Marked calm written.flash block ↔ ba < block :=
      marked_iff calmSound oob bad spare inside
    have readable : StillReadable calm written.flash ba := by
      intro state same
      have quiet : Calm calm state := fun clock _ => faults clock
      have start : calm.ba2addr ba < calm.size :=
        (calmSound.ba2addr_lt_size_iff calmSound.erasesize_pos).mpr inside
      constructor
      · have checked := checkBadPhysBlock_calm quiet ba
        rw [same] at checked
        by_contra reported
        exact absurd ((marked inside).mp (checked.1.mp (by simpa using reported)))
          (lt_irrefl ba)
      · have read := readPhysPage_calm quiet .placeOob start
        rw [Ensures] at read
        rw [read.1]
    obtain ⟨rounds, sig, place, searched, _⟩ := finds (fun _ => {}) (onlyGood calm ba)
      (newSignature ld ld.mgmtStart) ba written (newSignature_recognised _) run (fun _ => {})
      written rfl readable
    have positive : 0 < ld.signatureLimit := by omega
    have width : ld.blockCount < 2 ^ 32 := by omega
    refine findSignatureLoop_marked faults positive width (fun block low high => ?_) rfl _
      searched
    exact (marked high).mpr (by omega)

theorem findsWritten_iff : FindsWritten ld ↔ ld.SearchCovers ∨ ld.writesize < signatureSize := by
  constructor
  · intro finds
    by_cases fits : signatureSize ≤ ld.writesize
    · exact .inl (covers_of_findsWritten accepted sound fits finds)
    · exact .inr (Nat.lt_of_not_le fits)
  · rintro (covers | short)
    · exact findsWritten_of_covers accepted sound covers
    · intro fault state sig ba written _ run
      have stored := @writeSignature_stored _ (sound.behaving fault) ld.mgmtStart sig state
      rw [Ensures, run] at stored
      have fits : signatureSize ≤ ld.writesize := (stored ba rfl).1
      omega

end Written

/-- The search ends exactly on chips of at least 16 blocks.  It goes down to every block that a
signature is written to exactly if `SearchCovers` holds, or no signature fits in a page. -/
theorem signatureSearch_iff {flags : Flags} (accepted : checkLowerMembers ld flags = true) :
    (SearchEnds ld ↔ 16 ≤ ld.blockCount) ∧ (ld.SearchCovers → SearchesDown ld) ∧
      (ld.Sound → (FindsWritten ld ↔ ld.SearchCovers ∨ ld.writesize < signatureSize)) :=
  ⟨searchEnds_iff accepted, searchesDown accepted, findsWritten_iff accepted⟩

theorem signatureSearch_iff_small :
    SearchEnds (smallChip 1 fun _ => {}) ∧ FindsWritten (smallChip 1 fun _ => {}) := by
  have sound : (smallChip 1 fun _ => {}).Sound := smallChip_sound _ (by decide)
  obtain ⟨flags, accepted⟩ := sound.accepted
  obtain ⟨ends, _, finds⟩ := signatureSearch_iff accepted
  exact ⟨ends.mpr (by decide +kernel), (finds sound).mpr (.inl (.inl (by decide +kernel)))⟩

def eightBlocks : LowerDevice :=
  { smallChip 1 fun _ => { readRet := - EIO } with size := 2048 }

theorem signatureSearch_neverEnds : checkLowerMembers eightBlocks creating = true ∧
    ∀ rounds state, (findSignature eightBlocks rounds state).1 = none := by
  have limit : eightBlocks.signatureLimit = 0 := by decide +kernel
  have unreadable : Unreadable eightBlocks := fun _ => (by decide : (- EIO : Int) < 0)
  refine ⟨by decide +kernel, fun rounds state => ?_⟩
  rw [findSignature, limit]
  exact findSignatureLoop_unreadable unreadable rounds

end MetaFilogic.Nmbm
