import Deskhub.Protocol.Wire.File
import Deskhub.Protocol.Wire.AuthGrammar

/-!
# What an accepted file offer keeps to

`ParseFileOffer` once more, with reads that fail past the end: none does. An offer it takes is
within the limits, and the builder writes it as the parser read it.
-/

namespace Deskhub

/-- The loop of `ParseFileOffer` over `count` entries from offset `off`, with each of its reads
where the source makes it: the files, and the offset behind the last one. -/
def readOfferEntries (payload : Bytes) :
    Nat → Nat → UInt64 → Option (Option (List TransferFile × Nat))
  | 0, off, _ => some (some ([], off))
  | count + 1, off, totalBytes =>
      if payload.length < off + kFileOfferEntryOverhead then some none
      else do
        let size ← getU64At? payload off
        if size > kMaxTransferFileBytes then some none
        else if totalBytes + size > kMaxTransferBatchBytes then some none
        else do
          let nameLen := (← byteAt? payload (off + 8)).toNat
          if payload.length < off + kFileOfferEntryOverhead + nameLen then some none
          else do
            let name ← bytesAt? payload (off + kFileOfferEntryOverhead) nameLen
            if !isWireLegalFileName name then some none
            else do
              let rest ← readOfferEntries payload count (off + kFileOfferEntryOverhead + nameLen)
                (totalBytes + size)
              some (rest.map fun read => (⟨size, name⟩ :: read.1, read.2))

/-- `ParseFileOffer` with each of its reads: the offer, and how far the parser has come. -/
def readFileOffer (payload : Bytes) : Option (Option (FileOffer × Nat)) :=
  if payload.length < kFileOfferHeaderSize then some none
  else do
    let batchId ← getU32At? payload 0
    let count := (← byteAt? payload 4).toNat
    if count = 0 ∨ kMaxTransferFiles < count then some none
    else do
      let rest ← readOfferEntries payload count kFileOfferHeaderSize 0
      some (rest.map fun read => (⟨batchId, read.1⟩, read.2))

/-- The bytes of the files' entries. -/
def entriesLength (files : List TransferFile) : Nat :=
  (files.map fun f => kFileOfferEntryOverhead + f.name.length).sum

theorem entriesLength_cons (f : TransferFile) (files : List TransferFile) :
    entriesLength (f :: files) = kFileOfferEntryOverhead + f.name.length + entriesLength files := by
  unfold entriesLength
  rw [List.map_cons, List.sum_cons]

/-- Every read is within the payload, and the outcome is the parser's. -/
theorem readOfferEntries_eq (payload : Bytes) (count off : Nat) (totalBytes : UInt64) :
    readOfferEntries payload count off totalBytes =
      some ((parseOfferEntries count (payload.drop off) totalBytes).map fun files =>
        (files, off + entriesLength files)) := by
  induction count generalizing off totalBytes with
  | zero => rfl
  | succ count ih =>
    have hover : kFileOfferEntryOverhead = 9 := rfl
    rw [readOfferEntries, parseOfferEntries, List.length_drop]
    by_cases hshort : payload.length < off + kFileOfferEntryOverhead
    · rw [if_pos hshort, if_pos (by omega)]
      rfl
    · rw [if_neg hshort, if_neg (by omega), read_bind (getU64At?_eq (by omega))]
      dsimp only
      generalize getU64 (payload.drop off) = size
      by_cases hsize : size > kMaxTransferFileBytes
      · rw [if_pos hsize, if_pos hsize]
        rfl
      · rw [if_neg hsize, if_neg hsize]
        by_cases htotal : totalBytes + size > kMaxTransferBatchBytes
        · rw [if_pos htotal, if_pos htotal]
          rfl
        · rw [if_neg htotal, if_neg htotal, read_bind (byteAt?_eq (by omega))]
          have hbyte : byteAt (payload.drop off) 8 = byteAt payload (off + 8) := by
            unfold byteAt
            rw [List.getD_eq_getElem?_getD, List.getElem?_drop, ← List.getD_eq_getElem?_getD]
          rw [hbyte]
          generalize (byteAt payload (off + 8)).toNat = nameLen
          rw [List.drop_drop, List.length_drop]
          by_cases hname : payload.length < off + kFileOfferEntryOverhead + nameLen
          · rw [if_pos hname, if_pos (by omega)]
            rfl
          · rw [if_neg hname, if_neg (by omega), read_bind (bytesAt?_eq (by omega))]
            have hnameLength : ((payload.drop (off + kFileOfferEntryOverhead)).take nameLen).length =
                nameLen := by
              rw [List.length_take, List.length_drop]
              omega
            generalize (payload.drop (off + kFileOfferEntryOverhead)).take nameLen = name at hnameLength ⊢
            by_cases hlegal : (!isWireLegalFileName name) = true
            · rw [if_pos hlegal, if_pos hlegal]
              rfl
            · rw [if_neg hlegal, if_neg hlegal, List.drop_drop, read_bind (ih _ _), Option.map_map,
                Option.map_map]
              congr 2
              funext files
              rw [Function.comp_apply, Function.comp_apply, entriesLength_cons, hnameLength,
                Nat.add_assoc, Nat.add_assoc, Nat.add_assoc]

theorem readFileOffer_eq (payload : Bytes) :
    readFileOffer payload = some ((parseFileOffer payload).map fun m =>
      (m, kFileOfferHeaderSize + entriesLength m.files)) := by
  have hsize : kFileOfferHeaderSize = 5 := rfl
  unfold readFileOffer parseFileOffer
  by_cases hshort : payload.length < kFileOfferHeaderSize
  · rw [if_pos hshort, if_pos hshort]
    rfl
  · rw [if_neg hshort, if_neg hshort, read_bind (getU32At?_eq (by omega)),
      read_bind (byteAt?_eq (by omega))]
    dsimp only
    by_cases hcount : (byteAt payload 4).toNat = 0 ∨ kMaxTransferFiles < (byteAt payload 4).toNat
    · rw [if_pos hcount, if_pos hcount]
      rfl
    · rw [if_neg hcount, if_neg hcount, read_bind (readOfferEntries_eq ..), Option.map_map,
        Option.map_map]
      rfl

/-! ## Within the limits, and canonical -/

/-- The entry of a file with a legal name. -/
theorem offerEntry_legal {f : TransferFile} (h : isWireLegalFileName f.name = true) :
    offerEntry f = putU64 f.size ++ UInt8.ofNat f.name.length :: f.name := by
  unfold offerEntry
  dsimp only
  rw [(utf8TruncLen_legal h).1, List.take_length, List.append_assoc, List.singleton_append]

theorem length_offerEntry {f : TransferFile} (h : isWireLegalFileName f.name = true) :
    (offerEntry f).length = kFileOfferEntryOverhead + f.name.length := by
  rw [offerEntry_legal h, List.length_append, length_putU64, List.length_cons]
  unfold kFileOfferEntryOverhead
  omega

/-- The first entry of those that were taken, and the parser behind it. -/
theorem parseOfferEntries_succ {count : Nat} {p : Bytes} {totalBytes : UInt64}
    {files : List TransferFile} (h : parseOfferEntries (count + 1) p totalBytes = some files) :
    ∃ f rest tail, files = f :: rest ∧ p = offerEntry f ++ tail ∧
      isWireLegalFileName f.name = true ∧ f.size ≤ kMaxTransferFileBytes ∧
      totalBytes + f.size ≤ kMaxTransferBatchBytes ∧
      parseOfferEntries count tail (totalBytes + f.size) = some rest := by
  have hover : kFileOfferEntryOverhead = 9 := rfl
  rw [parseOfferEntries] at h
  by_cases hshort : p.length < kFileOfferEntryOverhead
  · rw [if_pos hshort] at h
    cases h
  rw [if_neg hshort] at h
  dsimp only at h
  by_cases hsize : getU64 p > kMaxTransferFileBytes
  · rw [if_pos hsize] at h
    cases h
  rw [if_neg hsize] at h
  by_cases htotal : totalBytes + getU64 p > kMaxTransferBatchBytes
  · rw [if_pos htotal] at h
    cases h
  rw [if_neg htotal, List.length_drop] at h
  generalize hnameLen : (byteAt p 8).toNat = nameLen at h
  by_cases hname : p.length - kFileOfferEntryOverhead < nameLen
  · rw [if_pos hname] at h
    cases h
  rw [if_neg hname] at h
  by_cases hlegal : (!isWireLegalFileName ((p.drop kFileOfferEntryOverhead).take nameLen)) = true
  · rw [if_pos hlegal] at h
    cases h
  rw [if_neg hlegal] at h
  rcases Option.map_eq_some_iff.mp h with ⟨rest, hrest, rfl⟩
  have hlegal : isWireLegalFileName ((p.drop kFileOfferEntryOverhead).take nameLen) = true := by
    simpa using hlegal
  refine ⟨⟨getU64 p, (p.drop kFileOfferEntryOverhead).take nameLen⟩, rest, _, rfl, ?_, hlegal,
    UInt64.not_lt.mp hsize, UInt64.not_lt.mp htotal, hrest⟩
  have hnameLength : ((p.drop kFileOfferEntryOverhead).take nameLen).length = nameLen := by
    rw [List.length_take, List.length_drop]
    omega
  rw [offerEntry_legal hlegal]
  dsimp only
  rw [hnameLength, ← hnameLen, UInt8.ofNat_toNat, hnameLen, List.append_assoc, List.cons_append,
    List.take_append_drop]
  have hsizeAt := @drop_u64 p 0 (by omega)
  have hbyteAt := @drop_byte p 8 (by omega)
  rw [List.drop_zero] at hsizeAt
  exact hsizeAt.trans (congrArg _ hbyteAt)

/-- What the files of an offer keep to. -/
structure WithinLimits (files : List TransferFile) : Prop where
  legal : ∀ f ∈ files, isWireLegalFileName f.name = true
  small : ∀ f ∈ files, f.size ≤ kMaxTransferFileBytes

theorem WithinLimits.cons {f : TransferFile} {files : List TransferFile} (h : WithinLimits files)
    (hlegal : isWireLegalFileName f.name = true) (hsmall : f.size ≤ kMaxTransferFileBytes) :
    WithinLimits (f :: files) := by
  constructor
  · intro g hg
    rcases List.mem_cons.mp hg with rfl | hrest
    · exact hlegal
    · exact h.legal g hrest
  · intro g hg
    rcases List.mem_cons.mp hg with rfl | hrest
    · exact hsmall
    · exact h.small g hrest

/-- Two sums within their limits do not wrap. -/
theorem toNat_total {total size : UInt64} (htotal : total ≤ kMaxTransferBatchBytes)
    (hsize : size ≤ kMaxTransferFileBytes) : (total + size).toNat = total.toNat + size.toNat := by
  have hbatch : kMaxTransferBatchBytes.toNat = 34359738368 := rfl
  have hfile : kMaxTransferFileBytes.toNat = 8589934592 := rfl
  have htotal' := UInt64.le_iff_toNat_le.mp htotal
  have hsize' := UInt64.le_iff_toNat_le.mp hsize
  rw [UInt64.toNat_add]
  exact Nat.mod_eq_of_lt (by omega)

theorem parseOfferEntries_canonical {count : Nat} {p : Bytes} {totalBytes : UInt64}
    {files : List TransferFile} (h : parseOfferEntries count p totalBytes = some files)
    (htotal : totalBytes ≤ kMaxTransferBatchBytes) :
    files.length = count ∧ WithinLimits files ∧ offerable files totalBytes = true ∧
      totalBytes.toNat + (files.map (·.size.toNat)).sum ≤ kMaxTransferBatchBytes.toNat ∧
      ∃ tail, p = (files.map offerEntry).flatten ++ tail := by
  induction count generalizing p totalBytes files with
  | zero =>
    cases h
    refine ⟨rfl, ⟨?_, ?_⟩, rfl, UInt64.le_iff_toNat_le.mp htotal, p, rfl⟩
    · intro f hf
      cases hf
    · intro f hf
      cases hf
  | succ count ih =>
    rcases parseOfferEntries_succ h with ⟨f, rest, tail, rfl, rfl, hlegal, hsmall, hnext, hrest⟩
    rcases ih hrest hnext with ⟨hlength, hwithin, hofferable, hsum, tail', rfl⟩
    refine ⟨?_, hwithin.cons hlegal hsmall, ?_, ?_, tail', ?_⟩
    · rw [List.length_cons, hlength]
    · rw [offerable, hlegal, decide_eq_true hsmall, decide_eq_true hnext, hofferable]
      rfl
    · rw [toNat_total htotal hsmall] at hsum
      rw [List.map_cons, List.sum_cons]
      omega
    · rw [List.map_cons, List.flatten_cons, List.append_assoc]

theorem length_entries {files : List TransferFile} (h : WithinLimits files) :
    ((files.map offerEntry).flatten).length = entriesLength files := by
  unfold entriesLength
  rw [List.length_flatten, List.map_map]
  congr 1
  apply List.map_congr_left
  intro f hf
  exact length_offerEntry (h.legal f hf)

/-- `ParseFileOffer` reads within the payload. An offer it takes is within the limits of a batch,
and the builder, with room for it, writes the bytes the parser has read. -/
theorem fileOffer_canonical (payload : Bytes) :
    ∃ read, readFileOffer payload = some read ∧ read.map Prod.fst = parseFileOffer payload ∧
      ∀ m consumed, read = some (m, consumed) →
        (1 ≤ m.files.length ∧ m.files.length ≤ kMaxTransferFiles) ∧
        (∀ f ∈ m.files, isWireLegalFileName f.name = true ∧ f.size ≤ kMaxTransferFileBytes) ∧
        (m.files.map (·.size.toNat)).sum ≤ kMaxTransferBatchBytes.toNat ∧
        consumed ≤ payload.length ∧
        ∀ cap, kCommonHeaderSize + consumed ≤ cap →
          (buildFileOffer cap m).map payloadOf = some (payload.take consumed) := by
  refine ⟨_, readFileOffer_eq payload, ?_, ?_⟩
  · rw [Option.map_map]
    exact Option.map_id'
  · intro m consumed hread
    rcases Option.map_eq_some_iff.mp hread with ⟨m', hparse, heq⟩
    cases heq
    unfold parseFileOffer at hparse
    by_cases hshort : payload.length < kFileOfferHeaderSize
    · rw [if_pos hshort] at hparse
      cases hparse
    rw [if_neg hshort] at hparse
    dsimp only at hparse
    by_cases hcount : (byteAt payload 4).toNat = 0 ∨ kMaxTransferFiles < (byteAt payload 4).toNat
    · rw [if_pos hcount] at hparse
      cases hparse
    rw [if_neg hcount] at hparse
    push Not at hcount
    rcases Option.map_eq_some_iff.mp hparse with ⟨files, hfiles, rfl⟩
    rcases parseOfferEntries_canonical hfiles (by decide) with
      ⟨hlength, hwithin, hofferable, hsum, tail, htail⟩
    dsimp only
    have hbytes := length_entries hwithin
    -- the header in front of the entries
    have hfront : payload = putU32 (getU32 payload) ++ [UInt8.ofNat files.length] ++
        (files.map offerEntry).flatten ++ tail := by
      have hsize : kFileOfferHeaderSize = 5 := rfl
      have hidAt := @drop_u32 payload 0 (by omega)
      have hcountAt := @drop_byte payload 4 (by omega)
      rw [List.drop_zero] at hidAt
      rw [hlength, UInt8.ofNat_toNat]
      refine (hidAt.trans (congrArg _ (hcountAt.trans (congrArg _ htail)))).trans ?_
      simp only [List.append_assoc, List.cons_append, List.nil_append]
    have hconsumed : (putU32 (getU32 payload) ++ [UInt8.ofNat files.length] ++
        (files.map offerEntry).flatten).length = kFileOfferHeaderSize + entriesLength files := by
      rw [List.length_append, hbytes, List.length_append, length_putU32, List.length_singleton]
      rfl
    refine ⟨by omega, fun f hf => ⟨hwithin.legal f hf, hwithin.small f hf⟩, by simpa using hsum,
      ?_, ?_⟩
    · rw [← hconsumed]
      conv_rhs => rw [hfront]
      exact (List.prefix_append _ tail).length_le
    · intro cap hcap
      have htake : payload.take (kFileOfferHeaderSize + entriesLength files) =
          putU32 (getU32 payload) ++ [UInt8.ofNat files.length] ++ (files.map offerEntry).flatten := by
        conv_lhs => rw [hfront]
        rw [← hconsumed, List.take_left]
      have hsome : ¬ (files = [] ∨ kMaxTransferFiles < files.length) := by
        rintro (rfl | hmany)
        · exact hcount.1 hlength.symm
        · omega
      unfold buildFileOffer
      rw [htake, if_neg hsome, hofferable, if_neg (by decide)]
      dsimp only
      cases hwrite : writeCommon cap .fileOffer 0 .file (getU32 payload)
          (putU32 (getU32 payload) ++ [UInt8.ofNat files.length] ++
            (files.map offerEntry).flatten) with
      | none =>
        unfold writeCommon at hwrite
        rw [if_neg (by omega)] at hwrite
        cases hwrite
      | some d => rw [Option.map_some, payloadOf_writeCommon hwrite]

end Deskhub
