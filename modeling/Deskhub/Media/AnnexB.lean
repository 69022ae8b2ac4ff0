import Deskhub.Lib.StartCodes
import Deskhub.Protocol.ByteOrder
import Mathlib.Tactic.Ring

/-!
# Annex B

Scanning a stream for its units, the search for an IDR unit, and the way from length-prefixed units
to a stream.
-/

namespace Deskhub

namespace AnnexB

/-- `StartCodeLengthAt`. -/
def startCodeLengthAt (data : Bytes) (pos : Nat) : Nat :=
  if [0, 0, 0, 1] <+: data.drop pos then 4
  else if [0, 0, 1] <+: data.drop pos then 3
  else 0

theorem startCodeLengthAt_eq (data : Bytes) (pos : Nat) :
    startCodeLengthAt data pos = StartCodes.code (data.drop pos) := rfl

theorem lt_length_of_startCode {data : Bytes} {pos : Nat} (h : startCodeLengthAt data pos ≠ 0) :
    pos + startCodeLengthAt data pos ≤ data.length := by
  rw [startCodeLengthAt_eq] at h ⊢
  rcases StartCodes.code_cases (data.drop pos) with hnone | ⟨rest, hrest⟩ | ⟨rest, hrest⟩
  · exact absurd hnone h
  · have hlen := congrArg List.length hrest
    rw [List.length_drop] at hlen
    rw [hrest, StartCodes.code_long]
    simp only [List.length_cons] at hlen
    omega
  · have hlen := congrArg List.length hrest
    rw [List.length_drop] at hlen
    rw [hrest, StartCodes.code_short]
    simp only [List.length_cons] at hlen
    omega

structure NalRef where
  offset : Nat
  size : Nat
  startCode : Nat
  header : UInt8
deriving DecidableEq, Repr

/-- The bytes that a reference names. -/
def NalRef.bytes (data : Bytes) (nal : NalRef) : Bytes := (data.drop nal.offset).take nal.size

def h264NalType (header : UInt8) : UInt8 := header &&& 0x1F

def isH264Idr (header : UInt8) : Bool := h264NalType header = 5

/-- The loop to the end of a unit. -/
def nextStartCode (data : Bytes) (pos : Nat) : Nat :=
  if pos < data.length ∧ startCodeLengthAt data pos = 0 then nextStartCode data (pos + 1) else pos
termination_by data.length - pos

theorem le_nextStartCode (data : Bytes) (pos : Nat) : pos ≤ nextStartCode data pos := by
  induction pos using nextStartCode.induct data with
  | case1 pos hskip ih =>
    rw [nextStartCode, if_pos hskip]
    omega
  | case2 pos hstop =>
    rw [nextStartCode, if_neg hstop]

theorem lt_length_of_lt_next {data : Bytes} {pos : Nat} (h : pos < nextStartCode data pos) :
    pos < data.length := by
  rw [nextStartCode] at h
  by_cases hskip : pos < data.length ∧ startCodeLengthAt data pos = 0
  · exact hskip.1
  · rw [if_neg hskip] at h
    exact absurd h (Nat.lt_irrefl pos)

/-- The loop of `ParseAnnexB`. -/
def parseFrom (data : Bytes) (pos : Nat) : List NalRef :=
  if pos < data.length then
    let sc := startCodeLengthAt data pos
    if sc = 0 then parseFrom data (pos + 1)
    else
      let start := pos + sc
      let stop := nextStartCode data start
      if h : start < stop then
        ⟨start, stop - start, sc, data.get ⟨start, lt_length_of_lt_next h⟩⟩ :: parseFrom data stop
      else parseFrom data stop
  else []
termination_by data.length - pos
decreasing_by
  · omega
  · have := le_nextStartCode data (pos + startCodeLengthAt data pos)
    omega
  · have := le_nextStartCode data (pos + startCodeLengthAt data pos)
    omega

section Scan

variable {data : Bytes} {pos : Nat}

theorem parseFrom_end (hpos : ¬ pos < data.length) : parseFrom data pos = [] := by
  rw [parseFrom, if_neg hpos]

theorem parseFrom_skip (hpos : pos < data.length) (hnone : startCodeLengthAt data pos = 0) :
    parseFrom data pos = parseFrom data (pos + 1) := by
  conv_lhs => rw [parseFrom]
  rw [if_pos hpos]
  exact if_pos hnone

theorem parseFrom_unit (hpos : pos < data.length) (hcode : startCodeLengthAt data pos ≠ 0)
    {start : Nat} (hstart : pos + startCodeLengthAt data pos = start)
    (hunit : start < nextStartCode data start) :
    parseFrom data pos =
      ⟨start, nextStartCode data start - start, startCodeLengthAt data pos,
        data.get ⟨start, lt_length_of_lt_next hunit⟩⟩ ::
          parseFrom data (nextStartCode data start) := by
  subst hstart
  conv_lhs => rw [parseFrom]
  rw [if_pos hpos]
  exact (if_neg hcode).trans (dif_pos hunit)

theorem parseFrom_empty (hpos : pos < data.length) (hcode : startCodeLengthAt data pos ≠ 0)
    {start : Nat} (hstart : pos + startCodeLengthAt data pos = start)
    (hempty : ¬ start < nextStartCode data start) :
    parseFrom data pos = parseFrom data start := by
  subst hstart
  have hsame := Nat.le_antisymm (Nat.le_of_not_lt hempty) (le_nextStartCode data _)
  conv_lhs => rw [parseFrom]
  rw [if_pos hpos]
  refine (if_neg hcode).trans ((dif_neg hempty).trans ?_)
  show parseFrom data (nextStartCode data (pos + startCodeLengthAt data pos)) = _
  rw [hsame]

end Scan

/-- `ParseAnnexB`. -/
def parseAnnexB (data : Bytes) : List NalRef := parseFrom data 0

/-- The loop of `ContainsIdr`. -/
def containsIdrFrom (data : Bytes) (pos : Nat) : Bool :=
  if pos < data.length then
    let sc := startCodeLengthAt data pos
    if sc = 0 then containsIdrFrom data (pos + 1)
    else
      let start := pos + sc
      if h : start < data.length then
        if isH264Idr (data.get ⟨start, h⟩) then true else containsIdrFrom data start
      else false
  else false
termination_by data.length - pos

/-- `ContainsIdr`. -/
def containsIdr (data : Bytes) : Bool := containsIdrFrom data 0

/-- The loop of `AppendLengthPrefixed`: the highest byte first. -/
def lengthBytes (size lengthSize : Nat) : Bytes :=
  (List.range lengthSize).reverse.map (fun i => UInt8.ofNat (size >>> (i * 8)))

/-- `AppendLengthPrefixed`. -/
def appendLengthPrefixed (out nal : Bytes) (lengthSize : Nat) : Bytes :=
  out ++ lengthBytes nal.length lengthSize ++ nal

/-- The loop of `AvccToAnnexB`. -/
def avccFrom (avcc : Bytes) (lengthSize : Nat) (pos : Nat) (out : Bytes) : Bytes :=
  if pos + lengthSize ≤ avcc.length then
    let len := ((avcc.drop pos).take lengthSize).foldl (fun len b => len <<< 8 ||| b.toNat) 0
    let start := pos + lengthSize
    if len = 0 ∨ avcc.length - start < len then out
    else avccFrom avcc lengthSize (start + len)
      (out ++ [0, 0, 0, 1] ++ (avcc.drop start).take len)
  else out
termination_by avcc.length - pos

/-- `AvccToAnnexB`. -/
def avccToAnnexB (avcc : Bytes) (lengthSize : Nat) : Bytes :=
  if lengthSize = 0 ∨ 8 < lengthSize then [] else avccFrom avcc lengthSize 0 []

/-! ## The search for an IDR unit -/

/-- The search goes on at the next start code. -/
theorem containsIdrFrom_next (data : Bytes) (pos : Nat) :
    containsIdrFrom data (nextStartCode data pos) = containsIdrFrom data pos := by
  induction pos using nextStartCode.induct data with
  | case1 pos hskip ih =>
    rw [nextStartCode, if_pos hskip, ih]
    conv_rhs => rw [containsIdrFrom]
    rw [if_pos hskip.1, if_pos hskip.2]
  | case2 pos hstop =>
    rw [nextStartCode, if_neg hstop]

theorem containsIdrFrom_of_code {data : Bytes} {pos start : Nat} (hpos : pos < data.length)
    (hcode : startCodeLengthAt data pos ≠ 0) (hat : pos + startCodeLengthAt data pos = start)
    (hstart : start < data.length) :
    containsIdrFrom data pos =
      (isH264Idr (data.get ⟨start, hstart⟩) || containsIdrFrom data start) := by
  subst hat
  conv_lhs => rw [containsIdrFrom]
  rw [if_pos hpos]
  refine (if_neg hcode).trans ((dif_pos hstart).trans ?_)
  cases isH264Idr (data.get ⟨_, hstart⟩)
  · rfl
  · rfl

/-- A start code in place of a header is none of an IDR unit. -/
theorem not_idr_of_startCode {data : Bytes} {pos : Nat} (hpos : pos < data.length)
    (h : startCodeLengthAt data pos ≠ 0) : isH264Idr (data.get ⟨pos, hpos⟩) = false := by
  rw [startCodeLengthAt_eq, List.drop_eq_getElem_cons hpos] at h
  have hzero : data[pos] = 0 := by
    rcases StartCodes.code_cases (data[pos] :: data.drop (pos + 1)) with
      hnone | ⟨rest, hrest⟩ | ⟨rest, hrest⟩
    · exact absurd hnone h
    · exact (List.cons.inj hrest).1
    · exact (List.cons.inj hrest).1
  show isH264Idr data[pos] = false
  rw [hzero]
  rfl

theorem containsIdrFrom_iff (data : Bytes) (pos : Nat) :
    containsIdrFrom data pos = true ↔ ∃ nal ∈ parseFrom data pos, isH264Idr nal.header = true := by
  induction pos using parseFrom.induct data with
  | case1 pos hpos sc hnone ih =>
    rw [parseFrom_skip hpos hnone, ← ih]
    conv_lhs => rw [containsIdrFrom]
    rw [if_pos hpos]
    exact iff_of_eq (congrArg (· = true) (if_pos hnone))
  | case2 pos hpos sc hcode start stop hunit ih =>
    have hstart := lt_length_of_lt_next hunit
    rw [parseFrom_unit hpos hcode rfl hunit, List.exists_mem_cons_iff, ← ih]
    rw [containsIdrFrom_of_code hpos hcode rfl hstart, Bool.or_eq_true, ← containsIdrFrom_next]
  | case3 pos hpos sc hcode start stop hempty ih =>
    have hstop : nextStartCode data start = start :=
      Nat.le_antisymm (Nat.le_of_not_lt hempty) (le_nextStartCode data start)
    change containsIdrFrom data (nextStartCode data start) = true ↔
      ∃ nal ∈ parseFrom data (nextStartCode data start), isH264Idr nal.header = true at ih
    rw [hstop] at ih
    rw [parseFrom_empty hpos hcode rfl hempty, ← ih]
    by_cases hstart : start < data.length
    · have hnext : startCodeLengthAt data start ≠ 0 := by
        intro hnone
        rw [nextStartCode, if_pos ⟨hstart, hnone⟩] at hstop
        have := le_nextStartCode data (start + 1)
        omega
      rw [containsIdrFrom_of_code hpos hcode rfl hstart, not_idr_of_startCode hstart hnext,
        Bool.false_or]
    · have hend : containsIdrFrom data start = false := by
        rw [containsIdrFrom, if_neg hstart]
      rw [hend, containsIdrFrom, if_pos hpos]
      exact iff_of_eq (congrArg (· = true) ((if_neg hcode).trans (dif_neg hstart)))
  | case4 pos hend =>
    rw [containsIdrFrom, if_neg hend, parseFrom_end hend]
    simp

/-! ## The units of a stream -/

theorem nextStartCode_eq {data : Bytes} {pos : Nat} (hpos : pos ≤ data.length) :
    nextStartCode data pos = pos + (StartCodes.upTo (data.drop pos)).1.length := by
  induction pos using nextStartCode.induct data with
  | case1 pos hskip ih =>
    rw [nextStartCode, if_pos hskip, ih hskip.1]
    rw [List.drop_eq_getElem_cons hskip.1, StartCodes.upTo, if_pos, List.length_cons]
    · omega
    · rw [← List.drop_eq_getElem_cons hskip.1]
      exact hskip.2
  | case2 pos hstop =>
    rw [nextStartCode, if_neg hstop, StartCodes.upTo_of_begins]
    · rfl
    by_cases hlt : pos < data.length
    · exact .inr (fun hcode => hstop ⟨hlt, hcode⟩)
    · exact .inl (List.drop_eq_nil_of_le (Nat.le_of_not_lt hlt))

theorem drop_nextStartCode {data : Bytes} {pos : Nat} (hpos : pos ≤ data.length) :
    data.drop (nextStartCode data pos) = (StartCodes.upTo (data.drop pos)).2 := by
  rw [nextStartCode_eq hpos, ← List.drop_drop, StartCodes.drop_upTo]

theorem take_nextStartCode {data : Bytes} {pos : Nat} (hpos : pos ≤ data.length) :
    (data.drop pos).take (nextStartCode data pos - pos) = (StartCodes.upTo (data.drop pos)).1 := by
  rw [nextStartCode_eq hpos, Nat.add_sub_cancel_left, StartCodes.take_upTo]

theorem nextStartCode_le {data : Bytes} {pos : Nat} (hpos : pos ≤ data.length) :
    nextStartCode data pos ≤ data.length := by
  have hlen := StartCodes.length_upTo (data.drop pos)
  rw [List.length_drop] at hlen
  rw [nextStartCode_eq hpos]
  omega

/-- The units that a stream is parsed into. -/
def units (data : Bytes) : List Bytes := (parseAnnexB data).map (·.bytes data)

/-- The pieces of a stream from a position on. -/
def piecesFrom (data : Bytes) (pos : Nat) : List StartCodes.Piece :=
  StartCodes.pieces (StartCodes.upTo (data.drop pos)).2

/-- Past a start code the pieces are the unit's and those from the next one on. -/
theorem piecesFrom_of_code {data : Bytes} {pos start : Nat}
    (hcode : startCodeLengthAt data pos ≠ 0) (hat : pos + startCodeLengthAt data pos = start) :
    piecesFrom data pos =
      ⟨startCodeLengthAt data pos = 4, (data.drop start).take (nextStartCode data start - start)⟩ ::
        piecesFrom data (nextStartCode data start) := by
  have hstart := lt_length_of_startCode hcode
  rw [hat] at hstart
  have hbegins := StartCodes.begins_upTo (data.drop start)
  unfold piecesFrom
  rw [startCodeLengthAt_eq] at hcode
  rw [StartCodes.upTo_of_begins (.inr hcode), StartCodes.pieces_of_code hcode, List.drop_drop,
    ← startCodeLengthAt_eq, hat, take_nextStartCode hstart, drop_nextStartCode hstart,
    StartCodes.upTo_of_begins hbegins]

theorem piecesFrom_skip {data : Bytes} {pos : Nat} (hpos : pos < data.length)
    (hnone : startCodeLengthAt data pos = 0) :
    piecesFrom data pos = piecesFrom data (pos + 1) := by
  unfold piecesFrom
  rw [startCodeLengthAt_eq, List.drop_eq_getElem_cons hpos] at hnone
  rw [List.drop_eq_getElem_cons hpos, StartCodes.upTo, if_pos hnone]

/-- The units are those of the pieces that are not empty. -/
theorem bytes_parseFrom (data : Bytes) (pos : Nat) :
    (parseFrom data pos).map (·.bytes data) =
      ((piecesFrom data pos).map (·.unit)).filter (· ≠ []) := by
  induction pos using parseFrom.induct data with
  | case1 pos hpos sc hnone ih =>
    rw [parseFrom_skip hpos hnone, piecesFrom_skip hpos hnone]
    exact ih
  | case2 pos hpos sc hcode start stop hunit ih =>
    have hstart := lt_length_of_lt_next hunit
    have hsome : (data.drop start).take (stop - start) ≠ [] := by
      intro hnil
      have hlen := congrArg List.length hnil
      rw [List.length_take, List.length_drop, List.length_nil] at hlen
      omega
    rw [parseFrom_unit hpos hcode rfl hunit, piecesFrom_of_code hcode rfl, List.map_cons,
      List.map_cons, List.filter_cons_of_pos (by simpa using hsome)]
    rw [← ih]
    rfl
  | case3 pos hpos sc hcode start stop hempty ih =>
    have hstop : nextStartCode data start = start :=
      Nat.le_antisymm (Nat.le_of_not_lt hempty) (le_nextStartCode data start)
    change (parseFrom data (nextStartCode data start)).map _ =
      ((piecesFrom data (nextStartCode data start)).map _).filter _ at ih
    rw [hstop] at ih
    have hnil : (data.drop start).take (nextStartCode data start - start) = [] := by
      rw [hstop, Nat.sub_self, List.take_zero]
    rw [parseFrom_empty hpos hcode rfl hempty,
      piecesFrom_of_code hcode (rfl : pos + startCodeLengthAt data pos = start), hnil, hstop,
      List.map_cons, List.filter_cons_of_neg (by simp)]
    exact ih
  | case4 pos hend =>
    rw [parseFrom_end hend]
    unfold piecesFrom
    rw [List.drop_eq_nil_of_le (Nat.le_of_not_lt hend)]
    show [] = ((StartCodes.pieces []).map _).filter _
    rw [StartCodes.pieces_nil]
    rfl

/-- Pieces that lie apart are found behind bytes without a start code. -/
theorem piecesFrom_render {lead : Bytes} {ps : List StartCodes.Piece}
    (hlead : StartCodes.Fits lead (StartCodes.render ps)) (hps : StartCodes.Apart ps) :
    piecesFrom (lead ++ StartCodes.render ps) 0 = ps := by
  unfold piecesFrom
  rw [List.drop_zero, StartCodes.upTo_append hlead (StartCodes.begins_render ps),
    StartCodes.pieces_render hps]

/-- The units of pieces that lie apart, behind bytes without a start code. -/
theorem units_render {lead : Bytes} {ps : List StartCodes.Piece}
    (hlead : StartCodes.Fits lead (StartCodes.render ps)) (hps : StartCodes.Apart ps) :
    units (lead ++ StartCodes.render ps) = (ps.map (·.unit)).filter (· ≠ []) := by
  unfold units parseAnnexB
  rw [bytes_parseFrom, piecesFrom_render hlead hps]

/-- A stream is its pieces behind bytes without a start code. -/
theorem stream_split (data : Bytes) :
    (StartCodes.upTo data).1 ++ StartCodes.render (piecesFrom data 0) = data ∧
      StartCodes.Fits (StartCodes.upTo data).1 (StartCodes.render (piecesFrom data 0)) ∧
      StartCodes.Apart (piecesFrom data 0) := by
  have hbegins := StartCodes.begins_upTo data
  unfold piecesFrom
  rw [List.drop_zero, StartCodes.render_pieces hbegins]
  exact ⟨StartCodes.append_upTo data, StartCodes.fits_upTo data, StartCodes.apart_pieces hbegins⟩

/-! ## Length-prefixed units -/

/-- The bytes of a length, read back. -/
theorem foldl_lengthBytes (len lengthSize acc : Nat) :
    (lengthBytes len lengthSize).foldl (fun len b => len <<< 8 ||| b.toNat) acc =
      acc * 256 ^ lengthSize + len % 256 ^ lengthSize := by
  unfold lengthBytes
  induction lengthSize generalizing acc with
  | zero => simp [Nat.mod_one]
  | succ n ih =>
    rw [List.range_succ, List.reverse_append, List.map_append, List.foldl_append, ih]
    simp only [List.reverse_singleton, List.map_singleton, List.foldl_cons, List.foldl_nil,
      UInt8.toNat_ofNat']
    have hbyte : len >>> (n * 8) % 2 ^ 8 < 2 ^ 8 := Nat.mod_lt _ (by decide)
    have hsplit : len % 256 ^ (n + 1) = len % 256 ^ n + 256 ^ n * (len / 256 ^ n % 256) := by
      rw [Nat.pow_succ]
      exact Nat.mod_mul
    have hpow : (2 : Nat) ^ 8 = 256 := by decide
    rw [← Nat.shiftLeft_add_eq_or_of_lt hbyte, Nat.shiftLeft_eq, Nat.shiftRight_eq_div_pow,
      Nat.mul_comm n 8, Nat.pow_mul, hpow, hsplit]
    ring

theorem length_lengthBytes (size lengthSize : Nat) :
    (lengthBytes size lengthSize).length = lengthSize := by
  unfold lengthBytes
  rw [List.length_map, List.length_reverse, List.length_range]

/-- The units behind their lengths, one behind the other. -/
def prefixed (nals : List Bytes) (lengthSize : Nat) : Bytes :=
  nals.flatMap (fun nal => lengthBytes nal.length lengthSize ++ nal)

theorem foldl_appendLengthPrefixed (nals : List Bytes) (lengthSize : Nat) (out : Bytes) :
    nals.foldl (appendLengthPrefixed · · lengthSize) out = out ++ prefixed nals lengthSize := by
  induction nals generalizing out with
  | nil => exact (List.append_nil out).symm
  | cons nal nals ih =>
    rw [List.foldl_cons, ih]
    unfold appendLengthPrefixed prefixed
    rw [List.flatMap_cons, List.append_assoc, List.append_assoc, List.append_assoc]

/-- One turn of the loop takes the unit that stands there. -/
theorem avccFrom_unit {lengthSize : Nat} (done nal rest out : Bytes) (hsome : nal ≠ [])
    (hfits : nal.length < 256 ^ lengthSize) {avcc : Bytes}
    (havcc : avcc = done ++ (lengthBytes nal.length lengthSize ++ nal) ++ rest) :
    avccFrom avcc lengthSize done.length out =
      avccFrom avcc lengthSize
        (done ++ (lengthBytes nal.length lengthSize ++ nal)).length (out ++ [0, 0, 0, 1] ++ nal) := by
  have hsize := length_lengthBytes nal.length lengthSize
  have hpos := List.length_pos_iff.mpr hsome
  have hlength : avcc.length = done.length + lengthSize + nal.length + rest.length := by
    rw [havcc]
    simp only [List.length_append, hsize]
    omega
  have hlen : ((avcc.drop done.length).take lengthSize).foldl
      (fun len b => len <<< 8 ||| b.toNat) 0 = nal.length := by
    rw [havcc, List.append_assoc, List.drop_left, List.append_assoc, List.take_left' hsize,
      foldl_lengthBytes, Nat.zero_mul, Nat.zero_add, Nat.mod_eq_of_lt hfits]
  have hstart : avcc.drop (done.length + lengthSize) = nal ++ rest := by
    rw [havcc, ← List.drop_drop, List.append_assoc, List.drop_left, List.append_assoc,
      List.drop_left' hsize]
  have hgo : ¬ (nal.length = 0 ∨ avcc.length - (done.length + lengthSize) < nal.length) := by
    omega
  rw [avccFrom, if_pos (by omega)]
  dsimp only
  rw [hlen, if_neg hgo, hstart, List.take_left]
  simp only [List.length_append, hsize, Nat.add_assoc]

/-- The loop of `AvccToAnnexB` over what is left of the units. -/
theorem avccFrom_prefixed {lengthSize : Nat} (hsize : 0 < lengthSize) (done out : Bytes)
    (nals : List Bytes) (hnals : ∀ nal ∈ nals, nal ≠ [] ∧ nal.length < 256 ^ lengthSize) :
    avccFrom (done ++ prefixed nals lengthSize) lengthSize done.length out =
      out ++ StartCodes.render (nals.map (StartCodes.Piece.mk true)) := by
  induction nals generalizing done out with
  | nil =>
    rw [avccFrom, if_neg]
    · exact (List.append_nil out).symm
    · show ¬ done.length + lengthSize ≤ (done ++ []).length
      rw [List.append_nil]
      omega
  | cons nal nals ih =>
    rcases hnals nal List.mem_cons_self with ⟨hsome, hfits⟩
    have hsplit : done ++ prefixed (nal :: nals) lengthSize =
        done ++ (lengthBytes nal.length lengthSize ++ nal) ++ prefixed nals lengthSize := by
      unfold prefixed
      rw [List.flatMap_cons, List.append_assoc done]
    rw [avccFrom_unit done nal _ out hsome hfits hsplit, hsplit,
      ih _ _ (fun other hother => hnals other (List.mem_cons_of_mem nal hother)), List.append_assoc,
      List.append_assoc, List.map_cons, StartCodes.render_cons]
    rfl

/-- Units in which no start code stands lie apart behind the longer one. -/
theorem apart_long {nals : List Bytes} (hnals : ∀ nal ∈ nals, ¬ [0, 0, 1] <:+: nal) :
    StartCodes.Apart (nals.map (StartCodes.Piece.mk true)) := by
  induction nals with
  | nil => trivial
  | cons nal nals ih =>
    constructor
    · refine ⟨hnals nal List.mem_cons_self, ?_⟩
      intro hshort
      cases nals with
      | nil => cases hshort
      | cons next nals =>
        rw [List.map_cons, StartCodes.render_cons, StartCodes.code_bytes] at hshort
        cases hshort
    · exact ih (fun other hother => hnals other (List.mem_cons_of_mem nal hother))

end AnnexB

open AnnexB in
/-- The two scanners agree on an IDR unit, and units in which no start code stands come back from
the length-prefixed form as they were. -/
theorem annexB_consistent :
    (∀ data : Bytes, containsIdr data = true ↔
      ∃ nal ∈ parseAnnexB data, isH264Idr nal.header = true) ∧
    ∀ (nals : List Bytes) (lengthSize : Nat), 1 ≤ lengthSize → lengthSize ≤ 8 →
      (∀ nal ∈ nals, nal ≠ [] ∧ ¬ [0, 0, 1] <:+: nal ∧ nal.length < 256 ^ lengthSize) →
      units (avccToAnnexB (nals.foldl (appendLengthPrefixed · · lengthSize) []) lengthSize) =
        nals := by
  constructor
  · intro data
    exact containsIdrFrom_iff data 0
  · intro nals lengthSize hsize hmost hnals
    have hconvert : avccToAnnexB (nals.foldl (appendLengthPrefixed · · lengthSize) []) lengthSize =
        [] ++ StartCodes.render (nals.map (StartCodes.Piece.mk true)) := by
      unfold avccToAnnexB
      rw [if_neg (by omega), foldl_appendLengthPrefixed]
      exact avccFrom_prefixed hsize [] [] nals
        (fun nal hnal => ⟨(hnals nal hnal).1, (hnals nal hnal).2.2⟩)
    have hunits : (nals.map (StartCodes.Piece.mk true)).map (·.unit) = nals := by
      rw [List.map_map]
      exact List.map_id nals
    have hlead : StartCodes.Fits []
        (StartCodes.render (nals.map (StartCodes.Piece.mk true))) := StartCodes.fits_nil _
    rw [hconvert, units_render hlead (apart_long (fun nal hnal => (hnals nal hnal).2.1)), hunits,
      List.filter_eq_self]
    intro nal hnal
    simpa using (hnals nal hnal).1

open AnnexB in
/-- Two units, the first ending in zeros, behind lengths of two bytes. -/
theorem annexB_consistent_two :
    units (avccToAnnexB ([[0x65, 0, 0], [0x41, 7]].foldl (appendLengthPrefixed · · 2) []) 2) =
      [[0x65, 0, 0], [0x41, 7]] :=
  annexB_consistent.2 [[0x65, 0, 0], [0x41, 7]] 2 (by decide) (by decide) (by decide)

end Deskhub
