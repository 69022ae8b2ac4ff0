import Deskhub.Terminal.VtParserSteps

/-!
# The parameters of a control sequence

A control sequence is fields of digits with separators between them. The parser keeps a number
for each of the first 31 fields; the digits of all the others go to one more number, since a
separator opens no field when there are 32.
-/

namespace Deskhub

namespace VtParser

/-- A parser that bytes lead to. -/
def Reachable (p : VtParser) : Prop := ∃ bytes, (({} : VtParser).parse bytes).1 = p

theorem Reachable.ok {p : VtParser} (h : p.Reachable) : p.Ok := by
  rcases h with ⟨bytes, rfl⟩
  exact (parse_ok Ok.init bytes).1

theorem Reachable.parse {p : VtParser} (h : p.Reachable) (bytes : Bytes) : (p.parse bytes).1.Reachable := by
  rcases h with ⟨before, rfl⟩
  refine ⟨before ++ bytes, ?_⟩
  rw [parse_append]

/-! ## What is stored -/

/-- A parameter that is stored: omitted, or a number in range. -/
def ParamOk (v : Int) : Prop := v = kVtParamOmitted ∨ 0 ≤ v ∧ v ≤ kMaxVtParamValue

/-- No more parameters than are held, each in range. -/
structure ParamsOk (params : List Int) : Prop where
  count : params.length ≤ kMaxVtParams
  stored : ∀ v ∈ params, ParamOk v

/-- What a digit makes of the last parameter, before it is clamped. -/
def slotSum (p : VtParser) (byte : UInt8) : Int :=
  let last := p.params.getLastD 0
  (if last = kVtParamOmitted then 0 else last) * 10 + ((byte.toNat : Int) - 0x30)

theorem pushParamDigit_params (p : VtParser) (byte : UInt8) :
    (p.pushParamDigit byte).params = p.params.dropLast ++ [min (p.slotSum byte) kMaxVtParamValue] := by
  have hclamp : ∀ v : Int, (if v > kMaxVtParamValue then kMaxVtParamValue else v) = min v kMaxVtParamValue := by
    intro v
    split
    · omega
    · omega
  unfold pushParamDigit slotSum
  dsimp only
  rw [hclamp]
  by_cases hnil : p.params = []
  · rw [hnil]
    rfl
  · rw [if_neg hnil]

theorem isParamByte_iff {b : UInt8} : isParamByte b = true ↔ 0x30 ≤ b.toNat ∧ b.toNat ≤ 0x39 := by
  simp only [isParamByte, Bool.and_eq_true, decide_eq_true_eq, UInt8.le_iff_toNat_le]
  rfl

/-- The sum stays far within 32 bits. -/
theorem slotSum_range {p : VtParser} (h : ParamsOk p.params) {b : UInt8} (hb : isParamByte b = true) :
    0 ≤ p.slotSum b ∧ p.slotSum b < 2 ^ 31 := by
  have hdigit := isParamByte_iff.mp hb
  have hlast : ParamOk (p.params.getLastD 0) := by
    rcases List.eq_nil_or_concat p.params with hnil | ⟨init, last, hconcat⟩
    · rw [hnil]
      exact Or.inr ⟨Int.le_refl 0, by decide⟩
    · have hmem := h.stored last
      rw [hconcat] at hmem ⊢
      rw [List.concat_eq_append, List.getLastD_concat]
      exact hmem (by simp)
  unfold slotSum
  dsimp only
  rcases hlast with homitted | ⟨hlow, hhigh⟩
  · rw [homitted, if_pos rfl]
    omega
  · unfold kMaxVtParamValue at hhigh
    split
    · omega
    · omega

theorem ParamsOk.digit {p : VtParser} (h : ParamsOk p.params) {b : UInt8} (hb : isParamByte b = true) :
    ParamsOk (p.pushParamDigit b).params := by
  have hsum := slotSum_range h hb
  rw [pushParamDigit_params]
  constructor
  · have hcount := h.count
    rw [List.length_append, List.length_dropLast, List.length_singleton]
    unfold kMaxVtParams at *
    omega
  · intro v hv
    rcases List.mem_append.mp hv with hv | hv
    · exact h.stored v (List.dropLast_subset _ hv)
    · rw [List.mem_singleton.mp hv]
      exact Or.inr ⟨Int.le_min.mpr ⟨hsum.1, by decide⟩, Int.min_le_right _ _⟩

theorem pushParamSeparator_params (p : VtParser) :
    p.pushParamSeparator.params =
      (if p.params = [] then [kVtParamOmitted, kVtParamOmitted]
       else if p.params.length < kMaxVtParams then p.params ++ [kVtParamOmitted] else p.params) := by
  unfold pushParamSeparator
  dsimp only
  split
  · rfl
  · rfl

theorem ParamsOk.separator {p : VtParser} (h : ParamsOk p.params) : ParamsOk p.pushParamSeparator.params := by
  rw [pushParamSeparator_params]
  split
  · refine ⟨by decide, ?_⟩
    intro v hv
    exact Or.inl (by simpa using hv)
  · split
    · next hroom =>
      refine ⟨by rw [List.length_append]; exact hroom, ?_⟩
      intro v hv
      rcases List.mem_append.mp hv with hv | hv
      · exact h.stored v hv
      · exact Or.inl (List.mem_singleton.mp hv)
    · exact h

theorem ParamsOk.nil : ParamsOk [] := ⟨Nat.zero_le _, nofun⟩

end VtParser

/-- The parameters an event carries are in range. -/
def VtEvent.ParamsOk : VtEvent → Prop
  | .csi _ _ _ params => VtParser.ParamsOk params
  | _ => True

namespace VtParser

/-- What one byte does: the parameters of the parser stay in range, and so do the events'. -/
def StepParamsOk (r : VtParser × List VtEvent) : Prop := ParamsOk r.1.params ∧ ∀ e ∈ r.2, e.ParamsOk

theorem StepParamsOk.ite {c : Prop} [Decidable c] {r r' : VtParser × List VtEvent} (h : c → StepParamsOk r)
    (h' : ¬ c → StepParamsOk r') : StepParamsOk (if c then r else r') := by
  split
  · next hc => exact h hc
  · next hc => exact h' hc

theorem StepParamsOk.quiet {p : VtParser} (h : ParamsOk p.params) : StepParamsOk (p, []) := ⟨h, nofun⟩

theorem StepParamsOk.single {p : VtParser} {e : VtEvent} (h : ParamsOk p.params) (he : e.ParamsOk) :
    StepParamsOk (p, [e]) := by
  refine ⟨h, ?_⟩
  intro e' he'
  rw [List.mem_singleton.mp he']
  exact he

theorem ground_paramsOk {p : VtParser} (h : ParamsOk p.params) (byte : UInt8) :
    StepParamsOk (p.ground byte) := by
  have hlead : ∀ q : VtParser, ParamsOk q.params → StepParamsOk (q.consumeLead byte) := by
    intro q hq
    unfold consumeLead
    refine .ite (fun _ => .single hq trivial) fun _ => ?_
    refine .ite (fun _ => .quiet hq) fun _ => ?_
    refine .ite (fun _ => .quiet hq) fun _ => ?_
    exact .ite (fun _ => .quiet hq) fun _ => .single hq trivial
  have hdropped : StepParamsOk p.dropPartial := by
    unfold dropPartial
    exact .ite (fun _ => .single h trivial) fun _ => .quiet h
  unfold ground
  refine .ite (fun _ => ⟨.nil, hdropped.2⟩) fun _ => ?_
  refine .ite (fun _ => ⟨hdropped.1, ?_⟩) fun _ => ?_
  · intro e he
    rcases List.mem_append.mp he with he | he
    · exact hdropped.2 e he
    · split at he
      · rw [List.mem_singleton.mp he]
        trivial
      · cases he
  · unfold consumeGround
    refine .ite (fun _ => .ite (fun _ => .ite (fun _ => .single h trivial) fun _ => .quiet h) fun _ => ?_)
      fun _ => hlead p h
    rcases hlead { p with utf8Left := 0 } h with ⟨hparser, hevents⟩
    refine ⟨hparser, ?_⟩
    intro e he
    rcases List.mem_cons.mp he with rfl | he
    · trivial
    · exact hevents e he

theorem executeOr_paramsOk {p : VtParser} (h : ParamsOk p.params) (byte : UInt8) :
    StepParamsOk (p.executeOr byte) :=
  .ite (fun _ => .single h trivial) fun _ => .quiet h

theorem escape_paramsOk {p : VtParser} (h : ParamsOk p.params) (byte : UInt8) :
    StepParamsOk (p.escape byte) := by
  unfold escape
  refine .ite (fun _ => .quiet .nil) fun _ => ?_
  refine .ite (fun _ => .quiet h) fun _ => ?_
  refine .ite (fun _ => .quiet h) fun _ => ?_
  refine .ite (fun _ => .quiet h) fun _ => ?_
  refine .ite (fun _ => .quiet h) fun _ => ?_
  exact .ite (fun _ => .single h trivial) fun _ => executeOr_paramsOk h byte

theorem escapeIntermediate_paramsOk {p : VtParser} (h : ParamsOk p.params) (byte : UInt8) :
    StepParamsOk (p.escapeIntermediate byte) := by
  unfold escapeIntermediate
  refine .ite (fun _ => .quiet .nil) fun _ => ?_
  refine .ite (fun _ => .quiet h) fun _ => ?_
  exact .ite (fun _ => .single h trivial) fun _ => executeOr_paramsOk h byte

theorem csiParam_paramsOk {p : VtParser} (h : ParamsOk p.params) (byte : UInt8) :
    StepParamsOk (p.csiParam byte) := by
  unfold csiParam
  refine .ite (fun hdigit => .quiet (h.digit hdigit)) fun _ => ?_
  refine .ite (fun _ => .quiet h.separator) fun _ => ?_
  refine .ite (fun _ => .ite (fun _ => .quiet h) fun _ => .quiet h) fun _ => ?_
  refine .ite (fun _ => .quiet h) fun _ => ?_
  refine .ite (fun _ => .single h h) fun _ => ?_
  exact .ite (fun _ => .quiet .nil) fun _ => executeOr_paramsOk h byte

theorem csiIntermediate_paramsOk {p : VtParser} (h : ParamsOk p.params) (byte : UInt8) :
    StepParamsOk (p.csiIntermediate byte) := by
  unfold csiIntermediate
  refine .ite (fun _ => .quiet h) fun _ => ?_
  refine .ite (fun _ => .single h h) fun _ => ?_
  refine .ite (fun _ => .quiet .nil) fun _ => ?_
  exact .ite (fun _ => .single h trivial) fun _ => .quiet h

theorem csiIgnore_paramsOk {p : VtParser} (h : ParamsOk p.params) (byte : UInt8) :
    StepParamsOk (p.csiIgnore byte) := by
  unfold csiIgnore
  refine .ite (fun _ => .quiet h) fun _ => ?_
  exact .ite (fun _ => .quiet .nil) fun _ => executeOr_paramsOk h byte

theorem string_paramsOk {p : VtParser} (h : ParamsOk p.params) (byte : UInt8) :
    StepParamsOk (p.string byte) := by
  have hends : ∀ e ∈ p.endOfString, e.ParamsOk := by
    intro e he
    unfold endOfString at he
    split at he
    · rw [List.mem_singleton.mp he]
      trivial
    · cases he
  unfold string
  refine .ite (fun _ => .ite (fun _ => ⟨h, hends⟩) fun _ => ?_) fun _ => ?_
  · have hnext := escape_paramsOk (p := { p.startSequence with state := .escape }) ParamsOk.nil byte
    refine ⟨hnext.1, ?_⟩
    intro e he
    rcases List.mem_append.mp he with he | he
    · exact hends e he
    · exact hnext.2 e he
  · refine .ite (fun _ => .quiet h) fun _ => ?_
    refine .ite (fun _ => ⟨h, hends⟩) fun _ => ?_
    refine .ite (fun _ => .quiet h) fun _ => ?_
    exact .ite (fun _ => .quiet h) fun _ => .quiet h

theorem consume_paramsOk {p : VtParser} (h : ParamsOk p.params) (byte : UInt8) :
    StepParamsOk (p.consume byte) := by
  unfold consume
  cases p.state with
  | ground => exact ground_paramsOk h byte
  | escape => exact escape_paramsOk h byte
  | escapeIntermediate => exact escapeIntermediate_paramsOk h byte
  | csiEntry | csiParam => exact csiParam_paramsOk h byte
  | csiIntermediate => exact csiIntermediate_paramsOk h byte
  | csiIgnore => exact csiIgnore_paramsOk h byte
  | oscString | stringIgnore => exact string_paramsOk h byte

/-- Whatever a parser is fed, its parameters and the ones it emits stay in range. -/
theorem parse_paramsOk {p : VtParser} (h : ParamsOk p.params) (bytes : Bytes) :
    StepParamsOk (p.parse bytes) := by
  induction bytes generalizing p with
  | nil => exact .quiet h
  | cons b bytes ih =>
    rcases consume_paramsOk h b with ⟨hone, hout⟩
    rcases ih hone with ⟨hrest, hmore⟩
    rw [parse_cons]
    refine ⟨hrest, ?_⟩
    intro e he
    rcases List.mem_append.mp he with he | he
    · exact hout e he
    · exact hmore e he

theorem Reachable.paramsOk {p : VtParser} (h : p.Reachable) : ParamsOk p.params := by
  rcases h with ⟨bytes, rfl⟩
  exact (parse_paramsOk ParamsOk.nil bytes).1

/-! ## What is written -/

/-- The number that digits write. -/
def fieldValue (digits : Bytes) : Nat := digits.foldl (fun v b => v * 10 + (b.toNat - 0x30)) 0

theorem fieldValue_concat (digits : Bytes) (b : UInt8) :
    fieldValue (digits ++ [b]) = fieldValue digits * 10 + (b.toNat - 0x30) := by
  unfold fieldValue
  rw [List.foldl_concat]

theorem fieldValue_append (digits more : Bytes) :
    fieldValue (digits ++ more) = fieldValue digits * 10 ^ more.length + fieldValue more := by
  induction more using List.reverseRecOn with
  | nil => rw [List.append_nil, List.length_nil, Nat.pow_zero, Nat.mul_one]; rfl
  | append_singleton more b ih =>
    rw [← List.append_assoc, fieldValue_concat, ih, fieldValue_concat, List.length_append,
      List.length_singleton, Nat.pow_succ, Nat.add_mul, Nat.mul_assoc, Nat.add_assoc]

/-- Digits that write nothing are zeros. -/
theorem fieldValue_eq_zero_iff {digits : Bytes} (h : ∀ b ∈ digits, isParamByte b = true) :
    fieldValue digits = 0 ↔ ∀ b ∈ digits, b = 0x30 := by
  induction digits using List.reverseRecOn with
  | nil => exact iff_of_true rfl nofun
  | append_singleton digits b ih =>
    have hdigit := isParamByte_iff.mp (h b (by simp))
    have hzero : b.toNat = 0x30 ↔ b = 0x30 := UInt8.toNat_inj (b := 0x30)
    rw [fieldValue_concat, List.forall_mem_append, List.forall_mem_singleton, ← hzero,
      ← ih fun b' hb' => h b' (List.mem_append_left _ hb')]
    omega

/-- What a field's parameter says: its number, clamped, or the fallback. -/
def fieldParam (digits : Bytes) (fallback : Int) : Int :=
  if digits = [] then fallback else min (fieldValue digits : Int) kMaxVtParamValue

/-- What is stored for a field. -/
def stored (digits : Bytes) : Int := fieldParam digits kVtParamOmitted

theorem stored_eq_omitted_iff {digits : Bytes} : stored digits = kVtParamOmitted ↔ digits = [] := by
  unfold stored fieldParam kVtParamOmitted kMaxVtParamValue
  split
  · next hnil => exact iff_of_true rfl hnil
  · next hdigits => exact iff_of_false (by omega) hdigits

theorem paramOk_stored (digits : Bytes) : ParamOk (stored digits) := by
  unfold stored fieldParam ParamOk kMaxVtParamValue
  split
  · exact Or.inl rfl
  · exact Or.inr (by omega)

/-- A digit more. -/
theorem stored_concat {digits : Bytes} {b : UInt8} (hb : isParamByte b = true) :
    stored (digits ++ [b]) =
      min ((if stored digits = kVtParamOmitted then 0 else stored digits) * 10 + ((b.toNat : Int) - 0x30))
        kMaxVtParamValue := by
  have hdigit := isParamByte_iff.mp hb
  have hvalue : stored (digits ++ [b]) = min (fieldValue (digits ++ [b]) : Int) kMaxVtParamValue :=
    if_neg (by simp)
  rw [hvalue, fieldValue_concat]
  by_cases hnil : digits = []
  · rw [if_pos (stored_eq_omitted_iff.mpr hnil), hnil]
    show min (((0 * 10 + (b.toNat - 0x30) : Nat)) : Int) kMaxVtParamValue = _
    congr 1
    omega
  · have hstored : stored digits = min (fieldValue digits : Int) kMaxVtParamValue := if_neg hnil
    rw [if_neg (mt stored_eq_omitted_iff.mp hnil), hstored]
    unfold kMaxVtParamValue
    omega

/-- Digits behind a field's own are not seen exactly where the number is too large already, or
zero before and behind. -/
theorem fieldParam_append_iff {digits more : Bytes} (hmore : ∀ b ∈ more, isParamByte b = true) :
    (∀ fallback, fieldParam (digits ++ more) fallback = fieldParam digits fallback) ↔
      more = [] ∨ digits ≠ [] ∧
        (kMaxVtParamValue ≤ fieldValue digits ∨ fieldValue digits = 0 ∧ ∀ b ∈ more, b = 0x30) := by
  by_cases hnone : more = []
  · rw [hnone, List.append_nil]
    exact iff_of_true (fun _ => rfl) (Or.inl rfl)
  rw [or_iff_right hnone]
  have hboth : ∀ fallback, fieldParam (digits ++ more) fallback =
      min (fieldValue (digits ++ more) : Int) kMaxVtParamValue := by
    intro fallback
    exact if_neg (by simp [hnone])
  by_cases hnil : digits = []
  · -- an empty field has no number of its own
    refine iff_of_false ?_ fun h => h.1 hnil
    intro hall
    have hfallback := hall kVtParamOmitted
    have homitted : fieldParam digits kVtParamOmitted = kVtParamOmitted := if_pos hnil
    rw [hboth, homitted] at hfallback
    unfold kVtParamOmitted kMaxVtParamValue at hfallback
    omega
  rw [and_iff_right hnil]
  have hone : ∀ fallback, fieldParam digits fallback = min (fieldValue digits : Int) kMaxVtParamValue :=
    fun _ => if_neg hnil
  have hpower : 10 ≤ 10 ^ more.length := by
    have hlength := List.length_pos_iff.mpr hnone
    calc 10 = 10 ^ 1 := rfl
      _ ≤ 10 ^ more.length := Nat.pow_le_pow_right (by decide) hlength
  have hgrows : fieldValue digits * 10 ≤ fieldValue digits * 10 ^ more.length :=
    Nat.mul_le_mul_left _ hpower
  have hsum := fieldValue_append digits more
  rw [← fieldValue_eq_zero_iff hmore]
  constructor
  · intro hall
    have hmin := hall 0
    rw [hboth, hone, hsum] at hmin
    unfold kMaxVtParamValue at *
    by_cases hlarge : 65535 ≤ fieldValue digits
    · exact Or.inl (by omega)
    · refine Or.inr ?_
      omega
  · rintro (hlarge | ⟨hzero, hzeros⟩) fallback
    · rw [hboth, hone, hsum]
      unfold kMaxVtParamValue at *
      omega
    · rw [hboth, hone, hsum, hzero, hzeros, Nat.zero_mul]

/-! ## Fields and parameters -/

/-- What is stored of fields: a number for each of the first 31, and one for all the others. -/
def readParams (fields : List Bytes) : List Int :=
  (fields.take (kMaxVtParams - 1)).map stored ++
    (if kMaxVtParams - 1 < fields.length then [stored (fields.drop (kMaxVtParams - 1)).flatten] else [])

/-- With the last field apart: the others' numbers, and the digits that are in front of its own. -/
theorem readParams_concat (fields : List Bytes) (digits : Bytes) :
    readParams (fields ++ [digits]) =
      (fields.take (kMaxVtParams - 1)).map stored ++
        [stored ((fields.drop (kMaxVtParams - 1)).flatten ++ digits)] := by
  unfold readParams
  by_cases hroom : fields.length < kMaxVtParams - 1
  · rw [List.take_of_length_le (by rw [List.length_append]; exact hroom), if_neg (by
      rw [List.length_append]
      exact Nat.not_lt.mpr hroom), List.append_nil, List.map_append,
      List.take_of_length_le hroom.le, List.drop_of_length_le hroom.le]
    rfl
  · have hfull := Nat.not_lt.mp hroom
    rw [List.take_append_of_le_length hfull, List.drop_append_of_le_length hfull, if_pos (by
      rw [List.length_append]
      exact Nat.lt_succ_of_le hfull), List.flatten_append, List.flatten_singleton]

/-- The parameters of a sequence whose fields so far are these. -/
def Holds (params : List Int) (fields : List Bytes) : Prop :=
  params = readParams fields ∨ params = [] ∧ fields = [[]]

/-- The last of the parameters, with no fields but an empty one read as none. -/
theorem Holds.last {params : List Int} {fields : List Bytes} {digits : Bytes}
    (h : Holds params (fields ++ [digits])) :
    params.dropLast = (fields.take (kMaxVtParams - 1)).map stored ∧
      (if params.getLastD 0 = kVtParamOmitted then 0 else params.getLastD 0) =
        (if stored ((fields.drop (kMaxVtParams - 1)).flatten ++ digits) = kVtParamOmitted then 0
         else stored ((fields.drop (kMaxVtParams - 1)).flatten ++ digits)) := by
  rcases h with h | ⟨hnone, hempty⟩
  · rw [h, readParams_concat, List.dropLast_concat, List.getLastD_concat]
    exact ⟨rfl, rfl⟩
  · have hsplit : fields ++ [digits] = [] ++ [[]] := hempty
    rcases List.append_inj' hsplit rfl with ⟨rfl, hdigits⟩
    rw [List.singleton_inj.mp hdigits, hnone]
    exact ⟨rfl, rfl⟩

variable {marker : UInt8} {params : List Int} {fields : List Bytes} {digits : Bytes}

/-- A digit joins the last field. -/
theorem Holds.digit (h : Holds params (fields ++ [digits])) {b : UInt8} (hb : isParamByte b = true) :
    ∃ params', Extends [b] marker params params' ∧ Holds params' (fields ++ [digits ++ [b]]) := by
  refine ⟨_, ?_, Or.inl rfl⟩
  intro p hp
  rw [parse_singleton, hp.consume]
  unfold csiParam
  rw [if_pos hb]
  refine ⟨rfl, Or.inr rfl, hp.marker, hp.intermediate, ?_, hp.whole⟩
  rcases h.last with ⟨hinit, hlast⟩
  show (p.pushParamDigit b).params = _
  rw [pushParamDigit_params]
  unfold slotSum
  dsimp only
  rw [hp.params, hinit, hlast, readParams_concat, ← List.append_assoc, stored_concat hb]

theorem Holds.more (h : Holds params (fields ++ [digits])) {more : Bytes}
    (hmore : ∀ b ∈ more, isParamByte b = true) :
    ∃ params', Extends more marker params params' ∧ Holds params' (fields ++ [digits ++ more]) := by
  induction more generalizing params digits with
  | nil => exact ⟨params, .nil marker params, by rw [List.append_nil]; exact h⟩
  | cons b more ih =>
    have hdigit : ∃ params', Extends [b] marker params params' ∧ Holds params' (fields ++ [digits ++ [b]]) :=
      h.digit (hmore b (by simp))
    rcases hdigit with ⟨params', hone, hholds⟩
    rcases ih hholds fun b' hb' => hmore b' (by simp [hb']) with ⟨params'', hrest, hholds'⟩
    rw [List.append_assoc] at hholds'
    exact ⟨params'', hone.append hrest, hholds'⟩

/-- A separator opens the next field, in the parameters only while there is room. -/
theorem Holds.separator (h : Holds params (fields ++ [digits])) {b : UInt8} (hb : isSeparator b = true) :
    ∃ params', Extends [b] marker params params' ∧ Holds params' (fields ++ [digits] ++ [[]]) := by
  refine ⟨_, ?_, Or.inl rfl⟩
  intro p hp
  have hdigit : isParamByte b = false := by
    revert hb
    simp only [isSeparator, Bool.or_eq_true, decide_eq_true_eq]
    rintro (rfl | rfl)
    · decide
    · decide
  rw [parse_singleton, hp.consume]
  unfold csiParam
  rw [if_neg (by rw [hdigit]; decide), if_pos hb]
  refine ⟨rfl, Or.inr rfl, hp.marker, hp.intermediate, ?_, hp.whole⟩
  show p.pushParamSeparator.params = _
  rw [pushParamSeparator_params, hp.params, readParams_concat, List.append_nil]
  rcases h with h | ⟨hnone, hempty⟩
  · have hne : params ≠ [] := by
      rw [h, readParams_concat]
      simp
    rw [if_neg hne, h]
    by_cases hroom : fields.length < kMaxVtParams - 1
    · have hlength : (fields ++ [digits]).length ≤ kMaxVtParams - 1 := by
        rw [List.length_append]
        exact hroom
      have hall : readParams (fields ++ [digits]) = (fields ++ [digits]).map stored := by
        unfold readParams
        rw [List.take_of_length_le hlength, if_neg (Nat.not_lt.mpr hlength), List.append_nil]
      rw [hall, List.length_map, if_pos (show _ < kMaxVtParams from Nat.lt_succ_of_le hlength),
        List.take_of_length_le hlength, List.drop_of_length_le hlength]
      rfl
    · have hfull := Nat.not_lt.mp hroom
      rw [if_neg, readParams_concat, List.take_append_of_le_length hfull,
        List.drop_append_of_le_length hfull, List.flatten_append, List.flatten_singleton]
      rw [readParams_concat, List.length_append, List.length_map, List.length_take,
        Nat.min_eq_left hfull]
      exact Nat.lt_irrefl kMaxVtParams
  · have hsplit : fields ++ [digits] = [] ++ [[]] := hempty
    rcases List.append_inj' hsplit rfl with ⟨rfl, hdigits⟩
    rw [hnone, if_pos rfl, List.singleton_inj.mp hdigits]
    rfl

/-- Any number of fields more. -/
theorem Holds.others (h : Holds params (fields ++ [digits])) {rest : List (UInt8 × Bytes)}
    (hrest : ∀ f ∈ rest, isSeparator f.1 = true ∧ ∀ b ∈ f.2, isParamByte b = true) :
    ∃ params', Extends (rest.flatMap fun f => f.1 :: f.2) marker params params' ∧
      Holds params' (fields ++ [digits] ++ rest.map Prod.snd) := by
  induction rest generalizing params fields digits with
  | nil => exact ⟨params, .nil marker params, by rw [List.map_nil, List.append_nil]; exact h⟩
  | cons f rest ih =>
    rcases hrest f (by simp) with ⟨hseparator, hdigits⟩
    have hopens : ∃ params₁, Extends [f.1] marker params params₁ ∧ Holds params₁ (fields ++ [digits] ++ [[]]) :=
      h.separator hseparator
    rcases hopens with ⟨params₁, hopened, hholds₁⟩
    have hreads : ∃ params₂, Extends f.2 marker params₁ params₂ ∧
        Holds params₂ (fields ++ [digits] ++ [[] ++ f.2]) := hholds₁.more hdigits
    rcases hreads with ⟨params₂, hread, hholds₂⟩
    rw [List.nil_append] at hholds₂
    rcases ih hholds₂ fun f' hf' => hrest f' (by simp [hf']) with ⟨params₃, hlast, hholds₃⟩
    refine ⟨params₃, (hopened.append hread).append hlast, ?_⟩
    rw [List.append_assoc] at hholds₃
    exact hholds₃

/-- A number that is stored is read back, an omitted one as the fallback. -/
theorem vtParam_stored {i : Nat} (h : params[i]? = some (stored digits)) (fallback : Int) :
    vtParam params i fallback = fieldParam digits fallback := by
  unfold vtParam
  rw [h]
  dsimp only
  by_cases hnil : digits = []
  · rw [if_pos (stored_eq_omitted_iff.mpr hnil)]
    exact (if_pos hnil).symm
  · rw [if_neg (mt stored_eq_omitted_iff.mp hnil)]
    unfold stored fieldParam
    rw [if_neg hnil, if_neg hnil]

/-- The first 31 fields are read as they are, whatever follows. -/
theorem Holds.param (h : Holds params fields) {i : Nat} (hi : i < kMaxVtParams - 1)
    (hfield : fields[i]? = some digits) (fallback : Int) :
    vtParam params i fallback = fieldParam digits fallback := by
  rcases h with rfl | ⟨rfl, rfl⟩
  · apply vtParam_stored
    have htaken : ((fields.take (kMaxVtParams - 1)).map stored)[i]? = some (stored digits) := by
      rw [List.getElem?_map, List.getElem?_take_of_lt hi, hfield]
      rfl
    unfold readParams
    rw [List.getElem?_append_left (List.getElem?_eq_some_iff.mp htaken).1, htaken]
  · -- no parameter is stored for the one empty field
    rcases List.getElem?_eq_some_iff.mp hfield with ⟨hlt, hdigits⟩
    have hzero : i = 0 := Nat.lt_one_iff.mp hlt
    subst hzero
    rw [← hdigits]
    rfl

/-- The 32nd field is read with the digits of the ones behind it. -/
theorem Holds.lastParam (h : Holds params fields) (hfield : fields[kMaxVtParams - 1]? = some digits)
    (fallback : Int) :
    vtParam params (kMaxVtParams - 1) fallback =
      fieldParam (digits ++ (fields.drop kMaxVtParams).flatten) fallback := by
  rcases List.getElem?_eq_some_iff.mp hfield with ⟨hlt, hdigits⟩
  rcases h with rfl | ⟨rfl, rfl⟩
  · apply vtParam_stored
    have hsplit : fields.drop (kMaxVtParams - 1) = digits :: fields.drop kMaxVtParams := by
      rw [List.drop_eq_getElem_cons hlt, hdigits]
      rfl
    unfold readParams
    rw [if_pos hlt, hsplit, List.flatten_cons, List.getElem?_append_right, List.length_map,
      List.length_take, Nat.min_eq_left hlt.le, Nat.sub_self]
    · rfl
    · rw [List.length_map, List.length_take]
      exact Nat.min_le_left _ _
  · exact absurd hlt (by decide)

/-- What is stored for fields is in range. -/
theorem Holds.paramsOk (h : Holds params fields) : ParamsOk params := by
  rcases h with rfl | ⟨rfl, -⟩
  · unfold readParams
    constructor
    · have htaken := List.length_take_le (kMaxVtParams - 1) fields
      rw [List.length_append, List.length_map]
      split
      · exact Nat.succ_le_succ htaken
      · exact Nat.le_succ_of_le htaken
    · intro v hv
      rcases List.mem_append.mp hv with hv | hv
      · rcases List.mem_map.mp hv with ⟨digits, -, rfl⟩
        exact paramOk_stored digits
      · split at hv
        · rw [List.mem_singleton.mp hv]
          exact paramOk_stored _
        · cases hv
  · exact .nil

theorem intermediate_facts {b : UInt8} (h : isIntermediate b = true) :
    isParamByte b = false ∧ isSeparator b = false ∧ isPrivateMarker b = false := by
  simp only [isParamByte, isSeparator, isPrivateMarker, isIntermediate, Bool.and_eq_true,
    Bool.and_eq_false_iff, Bool.or_eq_false_iff, decide_eq_true_eq, decide_eq_false_iff_not,
    UInt8.le_iff_toNat_le, ← UInt8.toNat_inj, UInt8.reduceToNat] at h ⊢
  omega

/-- Behind an intermediate: the last one counts, and the parameters are as they were. -/
theorem parse_intermediates {p : VtParser} (hstate : p.state = .csiIntermediate) {bs : Bytes}
    (hbs : ∀ b ∈ bs, isIntermediate b = true) {final : UInt8} (hfinal : isCsiFinal final = true) :
    (p.parse (bs ++ [final])).2 = [.csi final p.marker (bs.getLastD p.intermediate) p.params] := by
  have hconsume : ∀ b, p.consume b = p.csiIntermediate b := by
    intro b
    unfold consume
    rw [hstate]
  induction bs generalizing p with
  | nil =>
    have hother := (csiFinal_facts hfinal).2.2.2
    rw [List.nil_append, parse_singleton, hconsume]
    unfold csiIntermediate
    rw [if_neg (by rw [hother]; decide), if_pos hfinal]
    rfl
  | cons b bs ih =>
    have hstep : p.consume b = ({ p with intermediate := b }, []) := by
      rw [hconsume]
      unfold csiIntermediate
      rw [if_pos (hbs b (by simp))]
    rw [List.cons_append, parse_cons, hstep, List.getLastD_cons]
    exact ih (p := { p with intermediate := b }) hstate (fun b' hb' => hbs b' (by simp [hb'])) fun b' => by
      unfold consume
      dsimp only
      rw [hstate]

/-- The end of a control sequence, with intermediates or without. -/
theorem InCsi.ends {p : VtParser} (h : InCsi p marker params) {bs : Bytes}
    (hbs : ∀ b ∈ bs, isIntermediate b = true) {final : UInt8} (hfinal : isCsiFinal final = true) :
    (p.parse (bs ++ [final])).2 = [.csi final marker (bs.getLastD 0) params] := by
  cases bs with
  | nil => exact (h.final hfinal).1
  | cons b bs =>
    have hb := hbs b (by simp)
    have hother := intermediate_facts hb
    have hstep : p.consume b = ({ p with intermediate := b, state := .csiIntermediate }, []) := by
      rw [h.consume]
      unfold csiParam
      rw [if_neg (by simp [hother]), if_neg (by simp [hother]), if_neg (by simp [hother]), if_pos hb]
    have hrest := parse_intermediates (p := { p with intermediate := b, state := .csiIntermediate }) rfl
      (fun b' (hb' : b' ∈ bs) => hbs b' (by simp [hb'])) hfinal
    rw [List.cons_append, parse_cons, hstep, List.getLastD_cons, List.nil_append, hrest, h.marker, h.params]

end VtParser

/-! ## Sequences as they are written -/

/-- A control sequence: a marker or none, fields of digits with separators between them,
intermediates and a final byte. -/
structure CsiText where
  marker : Option UInt8
  first : Bytes
  rest : List (UInt8 × Bytes)
  intermediates : Bytes
  final : UInt8
  markerOk : ∀ b ∈ marker, isPrivateMarker b = true
  firstOk : ∀ b ∈ first, isParamByte b = true
  restOk : ∀ f ∈ rest, isSeparator f.1 = true ∧ ∀ b ∈ f.2, isParamByte b = true
  intermediatesOk : ∀ b ∈ intermediates, isIntermediate b = true
  finalOk : isCsiFinal final = true

namespace CsiText

variable (t : CsiText) (p : VtParser)

def fields : List Bytes := t.first :: t.rest.map Prod.snd

/-- The fields with what separates them. -/
def body : Bytes := t.first ++ t.rest.flatMap fun f => f.1 :: f.2

def bytes : Bytes := kEsc :: 0x5B :: (t.marker.toList ++ t.body ++ t.intermediates ++ [t.final])

/-- The event of the sequence with these parameters: the last intermediate counts. -/
def event (params : List Int) : VtEvent :=
  .csi t.final (t.marker.getD 0) (t.intermediates.getLastD 0) params

/-- The sequence is read as it is written: each of the first 32 fields gives its parameter, what is
stored is in range, and no digit on the way leads to a number of more than 32 bits. -/
structure ReadAsWritten : Prop where
  params : ∃ params, (p.parse t.bytes).2 = p.interrupted ++ [t.event params] ∧
    VtParser.ParamsOk params ∧
    ∀ i, i < kMaxVtParams → ∀ digits, t.fields[i]? = some digits →
      ∀ fallback, vtParam params i fallback = VtParser.fieldParam digits fallback
  stored : ∀ bs, VtParser.ParamsOk (p.parse bs).1.params
  fits : ∀ bs b, isParamByte b = true → 0 ≤ (p.parse bs).1.slotSum b ∧ (p.parse bs).1.slotSum b < 2 ^ 31

/-- The digits behind the 32nd field make no difference to its parameter: there are none, or the
number is too large already, or zero before and behind. -/
def TailUnseen : Prop :=
  ∀ last, t.fields[kMaxVtParams - 1]? = some last →
    (t.fields.drop kMaxVtParams).flatten = [] ∨ last ≠ [] ∧
      (kMaxVtParamValue ≤ VtParser.fieldValue last ∨
        VtParser.fieldValue last = 0 ∧ ∀ b ∈ (t.fields.drop kMaxVtParams).flatten, b = 0x30)

variable {t : CsiText} {p : VtParser}

/-- The fields lead to the parameters they are read as. -/
theorem body_holds (t : CsiText) (marker : UInt8) :
    ∃ params, VtParser.Extends t.body marker [] params ∧ VtParser.Holds params t.fields := by
  have hstart : VtParser.Holds [] ([] ++ [[]]) := Or.inr ⟨rfl, rfl⟩
  have hfirst : ∃ params₁, VtParser.Extends t.first marker [] params₁ ∧ VtParser.Holds params₁ ([] ++ [[] ++ t.first]) :=
    hstart.more t.firstOk
  rcases hfirst with ⟨params₁, hread, hholds₁⟩
  rcases hholds₁.others t.restOk with ⟨params₂, hrest, hholds₂⟩
  exact ⟨params₂, hread.append hrest, hholds₂⟩

/-- Whatever the parser is in the middle of, the sequence ends that and leads to its event. -/
theorem parse_event (h : p.Ok) (t : CsiText) :
    ∃ params, (p.parse t.bytes).2 = p.interrupted ++ [t.event params] ∧
      VtParser.Holds params t.fields := by
  have hidle := p.settled_idle
  have hentry : p.settled.atEscape.consume 0x5B = ({ p.settled.atEscape with state := .csiEntry }, []) := by
    show p.settled.atEscape.escape 0x5B = _
    unfold VtParser.escape
    rw [if_neg (by decide), if_pos rfl]
  have hstart : VtParser.InCsi { p.settled.atEscape with state := .csiEntry } 0 [] :=
    ⟨Or.inl rfl, rfl, rfl, rfl, rfl⟩
  -- the marker, when there is one
  have hmarked : ∃ q : VtParser, ({ p.settled.atEscape with state := .csiEntry } : VtParser).parse
      t.marker.toList = (q, []) ∧ VtParser.InCsi q (t.marker.getD 0) [] := by
    have hok := t.markerOk
    cases hmarker : t.marker with
    | none => exact ⟨_, rfl, hstart⟩
    | some marker =>
      rcases hstart.marked rfl (hok marker hmarker) with ⟨hnone, hin⟩
      exact ⟨_, Prod.ext rfl hnone, hin⟩
  rcases hmarked with ⟨q, hq, hin⟩
  rcases t.body_holds (t.marker.getD 0) with ⟨params, hextends, hholds⟩
  rcases hextends q hin with ⟨hnone, hread⟩
  refine ⟨params, ?_, hholds⟩
  unfold bytes
  rw [VtParser.parse_resync h (by decide), VtParser.parse_cons, hidle.consume_esc, VtParser.parse_cons, hentry,
    List.append_assoc, List.append_assoc, VtParser.parse_append, hq, VtParser.parse_append, hnone,
    hread.ends t.intermediatesOk t.finalOk]
  rfl

/-- A control sequence is read as it is written, from wherever the parser is, if and only if no
digit behind its 32nd field is seen. -/
theorem readAsWritten_iff (h : p.Reachable) (t : CsiText) : t.ReadAsWritten p ↔ t.TailUnseen := by
  rcases parse_event h.ok t with ⟨params, hevent, hholds⟩
  have hdigits : ∀ b ∈ (t.fields.drop kMaxVtParams).flatten, isParamByte b = true := by
    intro b hb
    rcases List.mem_flatten.mp hb with ⟨digits, hfield, hmem⟩
    rcases List.mem_cons.mp (List.mem_of_mem_drop hfield) with rfl | hrest
    · exact t.firstOk b hmem
    · rcases List.mem_map.mp hrest with ⟨f, hf, rfl⟩
      exact (t.restOk f hf).2 b hmem
  constructor
  · rintro ⟨⟨params', hevent', -, hread⟩, -, -⟩ last hlast
    have hsame : params' = params := by
      rw [hevent] at hevent'
      have hevents := List.singleton_inj.mp (List.append_cancel_left hevent')
      injection hevents with _ _ _ hparams
      exact hparams.symm
    rw [← VtParser.fieldParam_append_iff hdigits]
    intro fallback
    rw [← hholds.lastParam hlast, ← hsame]
    exact hread _ (by decide) last hlast fallback
  · intro hunseen
    refine ⟨⟨params, hevent, hholds.paramsOk, ?_⟩, fun bs => (h.parse bs).paramsOk,
      fun bs b hb => VtParser.slotSum_range (h.parse bs).paramsOk hb⟩
    intro i hi digits hfield fallback
    rcases Nat.lt_or_eq_of_le (Nat.le_sub_one_of_lt hi) with hinner | hlast
    · exact hholds.param hinner hfield fallback
    · subst hlast
      rw [hholds.lastParam hfield]
      exact (VtParser.fieldParam_append_iff hdigits).mpr (hunseen digits hfield) fallback

/-- 33 fields, the last of them a digit and the others empty. -/
def overfull : CsiText where
  marker := none
  first := []
  rest := List.replicate 31 (0x3B, []) ++ [(0x3B, [0x35])]
  intermediates := []
  final := 0x6D
  markerOk := nofun
  firstOk := nofun
  restOk := by
    intro f hf
    rcases List.mem_append.mp hf with hempty | hlast
    · rw [(List.mem_replicate.mp hempty).2]
      exact ⟨rfl, nofun⟩
    · rw [List.mem_singleton.mp hlast]
      exact ⟨rfl, forall_of_all (by decide)⟩
  intermediatesOk := nofun
  finalOk := by decide

/-- One field: no digit is behind the 32nd. -/
def single : CsiText where
  marker := none
  first := [0x37]
  rest := []
  intermediates := []
  final := 0x41
  markerOk := nofun
  firstOk := forall_of_all (by decide)
  restOk := nofun
  intermediatesOk := nofun
  finalOk := by decide

theorem readAsWritten_iff_single : single.ReadAsWritten {} ↔ single.TailUnseen :=
  readAsWritten_iff ⟨[], rfl⟩ single

/-- The digit of the 33rd field is read as the 32nd's, which is empty. -/
theorem not_readAsWritten_overfull : ¬ overfull.ReadAsWritten {} := by
  rintro ⟨⟨params, hevent, -, hread⟩, -, -⟩
  have hparams : params = List.replicate 31 kVtParamOmitted ++ [5] := by
    have hrun : (({} : VtParser).parse overfull.bytes).2 =
        [.csi 0x6D 0 0 (List.replicate 31 kVtParamOmitted ++ [5])] := by decide +kernel
    rw [hrun] at hevent
    have hevents := List.singleton_inj.mp hevent
    injection hevents with _ _ _ hparams
    exact hparams.symm
  have hlast := hread 31 (by decide) [] (by decide) 9
  rw [hparams] at hlast
  exact absurd hlast (by decide)

end CsiText

end Deskhub
