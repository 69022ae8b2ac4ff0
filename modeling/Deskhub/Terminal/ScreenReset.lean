import Deskhub.Terminal.RepaintExact

/-!
# Resetting the terminal

ESC c leaves behind what a screen is never shown by: the scrollback, the responses,
and in the parser what the last character was put together in. Screens that differ in
these only go on alike whatever is written, so a reset screen goes on like a new one.
-/

namespace Deskhub

namespace VtParser

/-! ## The parser -/

/-- The parser with other bits of a character. -/
def withChar (p : VtParser) (acc least : Nat) : VtParser := { p with utf8Acc := acc, utf8Min := least }

/-- The parsers differ at most in the bits of a character that is not begun. -/
def Alike (p q : VtParser) : Prop := p = q ∨ p.utf8Left = 0 ∧ ∃ acc least, q = p.withChar acc least

/-- The parsers are left alike, with the same events. -/
def StepAlike (r r' : VtParser × List VtEvent) : Prop := Alike r.1 r'.1 ∧ r.2 = r'.2

variable {p : VtParser} (acc least : Nat)

theorem StepAlike.of_withChar {r : VtParser × List VtEvent} (h : r.1.utf8Left = 0) :
    StepAlike r (r.1.withChar acc least, r.2) :=
  ⟨Or.inr ⟨h, acc, least, rfl⟩, rfl⟩

theorem StepAlike.ite {c : Prop} [Decidable c] {a a' b b' : VtParser × List VtEvent}
    (ha : c → StepAlike a a') (hb : ¬ c → StepAlike b b') :
    StepAlike (if c then a else b) (if c then a' else b') := by
  by_cases h : c
  · rw [if_pos h, if_pos h]
    exact ha h
  · rw [if_neg h, if_neg h]
    exact hb h

/-- A character's first byte writes all its bits. -/
theorem consumeLead_alike (h : p.utf8Left = 0) (byte : UInt8) :
    StepAlike (p.consumeLead byte) ((p.withChar acc least).consumeLead byte) := by
  have hsame : StepAlike (p, [.print byte.toNat]) (p.withChar acc least, [.print byte.toNat]) :=
    .of_withChar (r := (p, [.print byte.toNat])) acc least h
  unfold consumeLead
  refine .ite (fun _ => hsame) fun _ => ?_
  refine .ite (fun _ => ⟨Or.inl rfl, rfl⟩) fun _ => ?_
  refine .ite (fun _ => ⟨Or.inl rfl, rfl⟩) fun _ => ?_
  refine .ite (fun _ => ⟨Or.inl rfl, rfl⟩) fun _ => ?_
  exact ⟨Or.inr ⟨h, acc, least, rfl⟩, rfl⟩

theorem ground_alike (h : p.utf8Left = 0) (byte : UInt8) :
    StepAlike (p.ground byte) ((p.withChar acc least).ground byte) := by
  have hnone : ∀ q : VtParser, q.utf8Left = 0 → q.dropPartial = (q, []) := by
    intro q hq
    unfold dropPartial
    rw [if_neg (by omega)]
  unfold ground
  rw [hnone p h, hnone (p.withChar acc least) h]
  refine .ite (fun _ => ⟨Or.inr ⟨h, acc, least, rfl⟩, rfl⟩) fun _ => ?_
  refine .ite (fun _ => ⟨Or.inr ⟨h, acc, least, rfl⟩, rfl⟩) fun _ => ?_
  have hlead : ∀ q : VtParser, q.utf8Left = 0 → q.consumeGround byte = q.consumeLead byte := by
    intro q hq
    unfold consumeGround
    rw [if_neg (by omega)]
  rw [hlead p h, hlead (p.withChar acc least) h]
  exact consumeLead_alike acc least h byte

theorem executeOr_alike (h : p.utf8Left = 0) (byte : UInt8) :
    StepAlike (p.executeOr byte) ((p.withChar acc least).executeOr byte) := by
  unfold executeOr
  exact .ite (fun _ => .of_withChar acc least h) fun _ => .of_withChar acc least h

/-- Within a sequence the bits of a character are neither read nor written. -/
theorem escape_alike (h : p.utf8Left = 0) (byte : UInt8) :
    StepAlike (p.escape byte) ((p.withChar acc least).escape byte) := by
  have hstep : ∀ r : VtParser × List VtEvent, r.1.utf8Left = 0 →
      StepAlike r (r.1.withChar acc least, r.2) := fun r hr => .of_withChar acc least hr
  unfold escape
  refine .ite (fun _ => hstep (_, _) h) fun _ => ?_
  refine .ite (fun _ => hstep (_, _) h) fun _ => ?_
  refine .ite (fun _ => hstep (_, _) h) fun _ => ?_
  refine .ite (fun _ => hstep (_, _) h) fun _ => ?_
  refine .ite (fun _ => hstep (_, _) h) fun _ => ?_
  exact .ite (fun _ => hstep (_, _) h) fun _ => executeOr_alike acc least h byte

theorem escapeIntermediate_alike (h : p.utf8Left = 0) (byte : UInt8) :
    StepAlike (p.escapeIntermediate byte) ((p.withChar acc least).escapeIntermediate byte) := by
  have hstep : ∀ r : VtParser × List VtEvent, r.1.utf8Left = 0 →
      StepAlike r (r.1.withChar acc least, r.2) := fun r hr => .of_withChar acc least hr
  unfold escapeIntermediate
  refine .ite (fun _ => hstep (_, _) h) fun _ => ?_
  refine .ite (fun _ => hstep (_, _) h) fun _ => ?_
  exact .ite (fun _ => hstep (_, _) h) fun _ => executeOr_alike acc least h byte

theorem csiParam_alike (h : p.utf8Left = 0) (byte : UInt8) :
    StepAlike (p.csiParam byte) ((p.withChar acc least).csiParam byte) := by
  have hstep : ∀ r : VtParser × List VtEvent, r.1.utf8Left = 0 →
      StepAlike r (r.1.withChar acc least, r.2) := fun r hr => .of_withChar acc least hr
  unfold csiParam
  refine .ite (fun _ => hstep (_, _) h) fun _ => ?_
  refine .ite (fun _ => hstep (_, _) h) fun _ => ?_
  refine .ite (fun _ => .ite (fun _ => hstep (_, _) h) fun _ => hstep (_, _) h) fun _ => ?_
  refine .ite (fun _ => hstep (_, _) h) fun _ => ?_
  refine .ite (fun _ => hstep (_, _) h) fun _ => ?_
  exact .ite (fun _ => hstep (_, _) h) fun _ => executeOr_alike acc least h byte

theorem csiIntermediate_alike (h : p.utf8Left = 0) (byte : UInt8) :
    StepAlike (p.csiIntermediate byte) ((p.withChar acc least).csiIntermediate byte) := by
  have hstep : ∀ r : VtParser × List VtEvent, r.1.utf8Left = 0 →
      StepAlike r (r.1.withChar acc least, r.2) := fun r hr => .of_withChar acc least hr
  unfold csiIntermediate
  refine .ite (fun _ => hstep (_, _) h) fun _ => ?_
  refine .ite (fun _ => hstep (_, _) h) fun _ => ?_
  refine .ite (fun _ => hstep (_, _) h) fun _ => ?_
  exact .ite (fun _ => hstep (_, _) h) fun _ => hstep (_, _) h

theorem csiIgnore_alike (h : p.utf8Left = 0) (byte : UInt8) :
    StepAlike (p.csiIgnore byte) ((p.withChar acc least).csiIgnore byte) := by
  have hstep : ∀ r : VtParser × List VtEvent, r.1.utf8Left = 0 →
      StepAlike r (r.1.withChar acc least, r.2) := fun r hr => .of_withChar acc least hr
  unfold csiIgnore
  refine .ite (fun _ => hstep (_, _) h) fun _ => ?_
  exact .ite (fun _ => hstep (_, _) h) fun _ => executeOr_alike acc least h byte

theorem string_alike (h : p.utf8Left = 0) (byte : UInt8) :
    StepAlike (p.string byte) ((p.withChar acc least).string byte) := by
  have hstep : ∀ r : VtParser × List VtEvent, r.1.utf8Left = 0 →
      StepAlike r (r.1.withChar acc least, r.2) := fun r hr => .of_withChar acc least hr
  unfold string
  refine .ite (fun _ => .ite (fun _ => hstep (_, _) h) fun _ => ?_) fun _ => ?_
  · -- the escape that ends the string starts a sequence
    have hnext := escape_alike (p := { p.startSequence with state := .escape }) acc least h byte
    refine ⟨hnext.1, ?_⟩
    exact congrArg (p.endOfString ++ ·) hnext.2
  refine .ite (fun _ => hstep (_, _) h) fun _ => ?_
  refine .ite (fun _ => hstep (_, _) h) fun _ => ?_
  refine .ite (fun _ => hstep (_, _) h) fun _ => ?_
  exact .ite (fun _ => hstep (_, _) h) fun _ => hstep (_, _) h

theorem consume_alike {p q : VtParser} (h : Alike p q) (byte : UInt8) :
    StepAlike (p.consume byte) (q.consume byte) := by
  rcases h with rfl | ⟨hnone, acc, least, rfl⟩
  · exact ⟨Or.inl rfl, rfl⟩
  have hstate : (p.withChar acc least).state = p.state := rfl
  unfold consume
  rw [hstate]
  cases p.state with
  | ground => exact ground_alike acc least hnone byte
  | escape => exact escape_alike acc least hnone byte
  | escapeIntermediate => exact escapeIntermediate_alike acc least hnone byte
  | csiEntry => exact csiParam_alike acc least hnone byte
  | csiParam => exact csiParam_alike acc least hnone byte
  | csiIntermediate => exact csiIntermediate_alike acc least hnone byte
  | csiIgnore => exact csiIgnore_alike acc least hnone byte
  | oscString => exact string_alike acc least hnone byte
  | stringIgnore => exact string_alike acc least hnone byte

/-- Parsers that are alike make the same of whatever they are fed. -/
theorem parse_alike {p q : VtParser} (h : Alike p q) (bytes : Bytes) :
    StepAlike (p.parse bytes) (q.parse bytes) := by
  induction bytes generalizing p q with
  | nil => exact ⟨h, rfl⟩
  | cons b bytes ih =>
    rcases consume_alike h b with ⟨hnext, hfirst⟩
    rcases ih hnext with ⟨hend, hrest⟩
    rw [parse_cons, parse_cons, hfirst, hrest]
    exact ⟨hend, rfl⟩

/-- Behind ESC c the parser is like a new one. -/
theorem parse_reset {p : VtParser} (h : Ok p) :
    ∃ q : VtParser, p.parse [kEsc, 0x63] = (q, p.interrupted ++ [.esc 0x63 0]) ∧ Alike q {} := by
  refine ⟨_, parse_esc h (by decide), Or.inr ⟨rfl, 0, 0, rfl⟩⟩

end VtParser

namespace Screen

/-! ## The screen -/

/-- The screen without what it is never shown by. -/
def shown (s : Screen) : Screen :=
  { s with scrollbackLimit := 0, scrollback := [], parser := {}, response := [], revision := 0 }

/-- The screens are shown alike. -/
def Shows (s t : Screen) : Prop := s.shown = t.shown

/-- The screen with another history, another parser and other responses. -/
def behind (s : Screen) (limit : Nat) (scrollback : List Row) (parser : VtParser) (response : Bytes)
    (revision : Nat) : Screen :=
  { s with
    scrollbackLimit := limit
    scrollback := scrollback
    parser := parser
    response := response
    revision := revision }

variable {s t : Screen}

theorem Shows.behind (h : Shows s t) :
    ∃ limit scrollback parser response revision,
      t = s.behind limit scrollback parser response revision := by
  refine ⟨t.scrollbackLimit, t.scrollback, t.parser, t.response, t.revision, ?_⟩
  show t = { s.shown with
    scrollbackLimit := t.scrollbackLimit
    scrollback := t.scrollback
    parser := t.parser
    response := t.response
    revision := t.revision }
  rw [h]
  rfl

theorem Shows.refl (s : Screen) : Shows s s := Eq.refl s.shown

theorem Shows.trans {u : Screen} (h : Shows s t) (h' : Shows t u) : Shows s u := Eq.trans h h'

/-- The branches of a dispatch that both screens take, one at a time. -/
theorem Shows.ite {c : Prop} [Decidable c] {a a' b b' : Screen} (ha : c → Shows a a')
    (hb : ¬ c → Shows b b') : Shows (if c then a else b) (if c then a' else b') := by
  by_cases h : c
  · rw [if_pos h, if_pos h]
    exact ha h
  · rw [if_neg h, if_neg h]
    exact hb h

theorem Shows.foldl {α : Type} {f : Screen → α → Screen}
    (hf : ∀ s t : Screen, Shows s t → ∀ a, Shows (f s a) (f t a)) (h : Shows s t) (as : List α) :
    Shows (as.foldl f s) (as.foldl f t) := by
  induction as generalizing s t with
  | nil => exact h
  | cons a as ih => exact ih (hf s t h a)

/-! ### Scrolling -/

theorem Shows.scrollUp (h : Shows s t) (count : Nat) : Shows (s.scrollUp count) (t.scrollUp count) := by
  rcases h.behind with ⟨limit, scrollback, parser, response, revision, rfl⟩
  rw [Shows, scrollUp_eq s count, scrollUp_eq (s.behind limit scrollback parser response revision) count]
  rfl

theorem Shows.scrollDown (h : Shows s t) (count : Nat) :
    Shows (s.scrollDown count) (t.scrollDown count) := by
  rcases h.behind with ⟨limit, scrollback, parser, response, revision, rfl⟩
  rfl

theorem Shows.unwrapped (h : Shows s t) :
    Shows { s with pendingWrap := false } { t with pendingWrap := false } := by
  rcases h.behind with ⟨limit, scrollback, parser, response, revision, rfl⟩
  rfl

theorem Shows.lineFeed (h : Shows s t) : Shows s.lineFeed t.lineFeed := by
  have hscrolled := h.unwrapped.scrollUp 1
  rcases h.behind with ⟨limit, scrollback, parser, response, revision, rfl⟩
  exact .ite (fun _ => hscrolled) fun _ => .ite (fun _ => rfl) fun _ => rfl

theorem Shows.reverseIndex (h : Shows s t) : Shows s.reverseIndex t.reverseIndex := by
  rcases h.behind with ⟨limit, scrollback, parser, response, revision, rfl⟩
  exact .ite (fun _ => rfl) fun _ => .ite (fun _ => rfl) fun _ => rfl

/-! ### Printing and moving -/

theorem Shows.setCol (h : Shows s t) (col : Nat) : Shows (s.setCol col) (t.setCol col) := by
  rcases h.behind with ⟨limit, scrollback, parser, response, revision, rfl⟩
  rfl

theorem Shows.wrapPending (h : Shows s t) : Shows s.wrapPending t.wrapPending := by
  have hfed := (h.setCol 0).lineFeed
  have hmade : Shows (if s.pendingWrap && s.modes.autoWrap then (s.setCol 0).lineFeed else s)
      (if t.pendingWrap && t.modes.autoWrap then (t.setCol 0).lineFeed else t) := by
    rcases h.behind with ⟨limit, scrollback, parser, response, revision, rfl⟩
    exact .ite (fun _ => hfed) fun _ => h
  exact hmade.unwrapped

theorem Shows.print (h : Shows s t) (cp : Nat) : Shows (s.print cp) (t.print cp) := by
  have hwrapped := h.wrapPending
  have hplaced : Shows
      (if s.wrapPending.cols ≤ s.wrapPending.cursor.col then s.wrapPending.setCol (s.wrapPending.cols - 1)
        else s.wrapPending)
      (if t.wrapPending.cols ≤ t.wrapPending.cursor.col then t.wrapPending.setCol (t.wrapPending.cols - 1)
        else t.wrapPending) := by
    rcases hwrapped.behind with ⟨limit, scrollback, parser, response, revision, hbehind⟩
    rw [hbehind]
    exact .ite (fun _ => rfl) fun _ => rfl
  rcases hplaced.behind with ⟨limit, scrollback, parser, response, revision, hbehind⟩
  unfold Screen.print
  dsimp only
  rw [hbehind]
  exact .ite (fun _ => rfl) fun _ => rfl

theorem Shows.execute (h : Shows s t) (control : UInt8) : Shows (s.execute control) (t.execute control) := by
  have hfed := h.lineFeed
  rcases h.behind with ⟨limit, scrollback, parser, response, revision, rfl⟩
  unfold Screen.execute
  refine .ite (fun _ => ?_) fun _ => ?_
  · exact .ite (fun _ => rfl) fun _ => .ite (fun _ => rfl) fun _ => rfl
  refine .ite (fun _ => rfl) fun _ => ?_
  refine .ite (fun _ => hfed) fun _ => ?_
  refine .ite (fun _ => rfl) fun _ => ?_
  exact .ite (fun _ => rfl) fun _ => .ite (fun _ => rfl) fun _ => rfl

theorem Shows.restoreCursor (h : Shows s t) : Shows s.restoreCursor t.restoreCursor := by
  rcases h.behind with ⟨limit, scrollback, parser, response, revision, rfl⟩
  rfl

theorem Shows.saveCursor (h : Shows s t) : Shows s.saveCursor t.saveCursor := by
  rcases h.behind with ⟨limit, scrollback, parser, response, revision, rfl⟩
  rfl

/-! ### Erasing, inserting and deleting -/

theorem Shows.eraseInDisplay (h : Shows s t) (how : Int) :
    Shows (s.eraseInDisplay how) (t.eraseInDisplay how) := by
  rcases h.behind with ⟨limit, scrollback, parser, response, revision, rfl⟩
  unfold Screen.eraseInDisplay
  refine .ite (fun _ => rfl) fun _ => .ite (fun _ => ?_) fun _ => rfl
  by_cases hthree : how = 3
  · rw [if_pos hthree, if_pos hthree]
    rfl
  · rw [if_neg hthree, if_neg hthree]
    rfl

theorem Shows.eraseInLine (h : Shows s t) (how : Int) : Shows (s.eraseInLine how) (t.eraseInLine how) := by
  rcases h.behind with ⟨limit, scrollback, parser, response, revision, rfl⟩
  exact .ite (fun _ => rfl) fun _ => .ite (fun _ => rfl) fun _ => rfl

theorem Shows.atCursorRow {f : Screen → Screen} (hf : ∀ s t : Screen, Shows s t → Shows (f s) (f t))
    (h : Shows s t) : Shows (s.atCursorRow f) (t.atCursorRow f) := by
  rcases h.behind with ⟨limit, scrollback, parser, response, revision, rfl⟩
  refine .ite (fun _ => h) fun _ => ?_
  let moved : Screen := { s with region := { s.region with top := s.cursor.row } }
  have hmoved : Shows (f moved) (f (moved.behind limit scrollback parser response revision)) := hf _ _ rfl
  rcases hmoved.behind with ⟨limit', scrollback', parser', response', revision', hbehind⟩
  -- what is done behind `f` is the same with the region and the column
  show Shows _ { (f (moved.behind limit scrollback parser response revision)).setCol 0 with
    region := { (f (moved.behind limit scrollback parser response revision)).region with top := s.region.top }
    pendingWrap := false }
  rw [hbehind]
  rfl

theorem Shows.insertLines (h : Shows s t) (count : Nat) :
    Shows (s.insertLines count) (t.insertLines count) :=
  Shows.atCursorRow (fun _ _ hs => hs.scrollDown count) h

theorem Shows.deleteLines (h : Shows s t) (count : Nat) :
    Shows (s.deleteLines count) (t.deleteLines count) :=
  Shows.atCursorRow (fun _ _ hs => hs.scrollUp count) h

/-! ### Modes -/

theorem Shows.switchScreen (h : Shows s t) (alternate clear : Bool) :
    Shows (s.switchScreen alternate clear) (t.switchScreen alternate clear) := by
  have herased := h.eraseInDisplay 2
  rcases h.behind with ⟨limit, scrollback, parser, response, revision, rfl⟩
  unfold Screen.switchScreen
  refine .ite (fun _ => .ite (fun _ => herased) fun _ => h) fun _ => ?_
  exact .ite (fun _ => Shows.eraseInDisplay rfl 2) fun _ => rfl

theorem Shows.setPrivateMode (h : Shows s t) (mode : Int) (on : Bool) :
    Shows (s.setPrivateMode mode on) (t.setPrivateMode mode on) := by
  have hswitched : ∀ clear, Shows (s.switchScreen on clear) (t.switchScreen on clear) :=
    fun clear => h.switchScreen on clear
  have hcleared : Shows (if !on && s.alternate then s.eraseInDisplay 2 else s)
      (if !on && t.alternate then t.eraseInDisplay 2 else t) := by
    have herased := h.eraseInDisplay 2
    rcases h.behind with ⟨limit, scrollback, parser, response, revision, rfl⟩
    exact .ite (fun _ => herased) fun _ => h
  have hsaved : Shows (if on then s.saveCursor else s) (if on then t.saveCursor else t) :=
    .ite (fun _ => h.saveCursor) fun _ => h
  have hrestored := h.restoreCursor
  have hentered : Shows
      (if on then (if on then s.saveCursor else s).switchScreen on on
        else ((if on then s.saveCursor else s).switchScreen on on).restoreCursor)
      (if on then (if on then t.saveCursor else t).switchScreen on on
        else ((if on then t.saveCursor else t).switchScreen on on).restoreCursor) :=
    .ite (fun _ => hsaved.switchScreen on on) fun _ => (hsaved.switchScreen on on).restoreCursor
  have hhome : Shows (({ s with modes := { s.modes with origin := on } } : Screen).moveTo 0 0)
      (({ t with modes := { t.modes with origin := on } } : Screen).moveTo 0 0) := by
    rcases h.behind with ⟨limit, scrollback, parser, response, revision, rfl⟩
    rfl
  have hkept : Shows s.saveCursor t.saveCursor := h.saveCursor
  rcases h.behind with ⟨limit, scrollback, parser, response, revision, rfl⟩
  unfold Screen.setPrivateMode
  refine .ite (fun _ => rfl) fun _ => ?_
  refine .ite (fun _ => rfl) fun _ => ?_
  refine .ite (fun _ => hhome) fun _ => ?_
  refine .ite (fun _ => rfl) fun _ => ?_
  refine .ite (fun _ => rfl) fun _ => ?_
  refine .ite (fun _ => hswitched false) fun _ => ?_
  refine .ite (fun _ => hcleared.switchScreen on false) fun _ => ?_
  refine .ite (fun _ => .ite (fun _ => hkept) fun _ => hrestored) fun _ => ?_
  refine .ite (fun _ => hentered) fun _ => ?_
  exact .ite (fun _ => rfl) fun _ => .ite (fun _ => rfl) fun _ => rfl

theorem Shows.setAnsiMode (h : Shows s t) (mode : Int) (on : Bool) :
    Shows (s.setAnsiMode mode on) (t.setAnsiMode mode on) := by
  rcases h.behind with ⟨limit, scrollback, parser, response, revision, rfl⟩
  exact .ite (fun _ => rfl) fun _ => rfl

theorem Shows.respond (h : Shows s t) (text text' : Bytes) : Shows (s.respond text) (t.respond text') := by
  have hone : ∀ (u : Screen) (text : Bytes), Shows (u.respond text) u := by
    intro u text
    unfold Screen.respond
    split
    · exact .refl u
    · exact Eq.refl u.shown
  exact ((hone s text).trans h).trans (Eq.symm (hone t text'))

/-! ### Events -/

theorem Shows.csiPublic (h : Shows s t) (final : UInt8) (params : List Int) :
    Shows (s.csiPublic final params) (t.csiPublic final params) := by
  have hfive : Shows (if vtParam params 0 0 = 5 then s.respond ([0x1B] ++ ascii "[0n") else s)
      (if vtParam params 0 0 = 5 then t.respond ([0x1B] ++ ascii "[0n") else t) :=
    .ite (fun _ => h.respond _ _) fun _ => h
  have hsix := fun text text' => hfive.respond text text'
  have hmodes : Shows
      ((List.range params.length).foldl
        (fun s i => s.setAnsiMode (vtParam params i 0) (final = 0x68)) s)
      ((List.range params.length).foldl
        (fun s i => s.setAnsiMode (vtParam params i 0) (final = 0x68)) t) :=
    Shows.foldl (fun _ _ hs i => hs.setAnsiMode (vtParam params i 0) (final = 0x68)) h _
  have hdisplay := h.eraseInDisplay (vtParam params 0 0)
  have hline := h.eraseInLine (vtParam params 0 0)
  have hinsert := h.insertLines (clampCount (vtParam params 0 1) s.rows)
  have hdelete := h.deleteLines (clampCount (vtParam params 0 1) s.rows)
  have hup := h.scrollUp (clampCount (vtParam params 0 1) s.rows)
  have hdown := h.scrollDown (clampCount (vtParam params 0 1) s.rows)
  have hanswer := fun text text' => h.respond text text'
  rcases h.behind with ⟨limit, scrollback, parser, response, revision, rfl⟩
  unfold Screen.csiPublic
  refine .ite (fun _ => rfl) fun _ => ?_
  refine .ite (fun _ => rfl) fun _ => ?_
  refine .ite (fun _ => rfl) fun _ => ?_
  refine .ite (fun _ => rfl) fun _ => ?_
  refine .ite (fun _ => rfl) fun _ => ?_
  refine .ite (fun _ => rfl) fun _ => ?_
  refine .ite (fun _ => rfl) fun _ => ?_
  refine .ite (fun _ => rfl) fun _ => ?_
  refine .ite (fun _ => rfl) fun _ => ?_
  refine .ite (fun _ => hdisplay) fun _ => ?_
  refine .ite (fun _ => hline) fun _ => ?_
  refine .ite (fun _ => hinsert) fun _ => ?_
  refine .ite (fun _ => hdelete) fun _ => ?_
  refine .ite (fun _ => rfl) fun _ => ?_
  refine .ite (fun _ => hup) fun _ => ?_
  refine .ite (fun _ => hdown) fun _ => ?_
  refine .ite (fun _ => rfl) fun _ => ?_
  refine .ite (fun _ => rfl) fun _ => ?_
  refine .ite (fun _ => rfl) fun _ => ?_
  refine .ite (fun _ => rfl) fun _ => ?_
  refine .ite (fun _ => .ite (fun _ => hanswer _ _) fun _ => h) fun _ => ?_
  refine .ite (fun _ => ?_) fun _ => ?_
  · exact .ite (fun _ => rfl) fun _ => rfl
  refine .ite (fun _ => .ite (fun _ => hsix _ _) fun _ => hfive) fun _ => ?_
  refine .ite (fun _ => rfl) fun _ => ?_
  refine .ite (fun _ => rfl) fun _ => ?_
  refine .ite (fun _ => rfl) fun _ => ?_
  exact .ite (fun _ => hmodes) fun _ => h

theorem Shows.csi (h : Shows s t) (final marker intermediate : UInt8) (params : List Int) :
    Shows (s.csi final marker intermediate params) (t.csi final marker intermediate params) := by
  unfold Screen.csi
  refine .ite (fun _ => .ite (fun _ => ?_) fun _ => h) fun _ => ?_
  · exact Shows.foldl (fun _ _ hs i => hs.setPrivateMode (vtParam params i 0) (final = 0x68)) h _
  refine .ite (fun _ => h) fun _ => ?_
  exact .ite (fun _ => h) fun _ => h.csiPublic final params

theorem Shows.esc (h : Shows s t) (final intermediate : UInt8) :
    Shows (s.esc final intermediate) (t.esc final intermediate) := by
  have hfed := h.lineFeed
  have hindex := h.reverseIndex
  rcases h.behind with ⟨limit, scrollback, parser, response, revision, rfl⟩
  unfold Screen.esc
  refine .ite (fun _ => rfl) fun _ => ?_
  refine .ite (fun _ => rfl) fun _ => ?_
  refine .ite (fun _ => .ite (fun _ => rfl) fun _ => h) fun _ => ?_
  refine .ite (fun _ => h) fun _ => ?_
  refine .ite (fun _ => rfl) fun _ => ?_
  refine .ite (fun _ => rfl) fun _ => ?_
  refine .ite (fun _ => rfl) fun _ => ?_
  refine .ite (fun _ => rfl) fun _ => ?_
  refine .ite (fun _ => hfed) fun _ => ?_
  refine .ite (fun _ => hfed.setCol 0) fun _ => ?_
  refine .ite (fun _ => hindex) fun _ => ?_
  exact .ite (fun _ => rfl) fun _ => h

theorem Shows.oscEvent (h : Shows s t) (command : Int) (text : Bytes) :
    Shows (s.oscEvent command text) (t.oscEvent command text) := by
  rcases h.behind with ⟨limit, scrollback, parser, response, revision, rfl⟩
  exact .ite (fun _ => rfl) fun _ => rfl

/-- Screens shown alike are shown alike after any event. -/
theorem Shows.apply (h : Shows s t) (e : VtEvent) : Shows (s.apply e) (t.apply e) := by
  cases e with
  | print cp => exact h.print cp
  | execute control => exact h.execute control
  | csi final marker intermediate params => exact h.csi final marker intermediate params
  | esc final intermediate => exact h.esc final intermediate
  | osc command text => exact h.oscEvent command text

theorem Shows.applyAll (h : Shows s t) (events : List VtEvent) :
    Shows (s.applyAll events) (t.applyAll events) :=
  Shows.foldl (fun _ _ hs e => hs.apply e) h events

/-! ## The reset -/

/-- What a full reset leaves is shown like a new screen of that size. -/
theorem fullReset_shows (h : s.Wf) (limit : Nat) : Shows s.fullReset (Screen.new s.size limit) := by
  have hgrid : s.grid.map (fun _ => List.replicate s.cols ({} : Cell)) =
      List.replicate s.size.rows (List.replicate s.size.cols {}) := by
    rw [List.map_const', h.grid.1]
    rfl
  unfold Screen.new
  rw [h.size.clamp_eq]
  unfold Screen.fullReset
  rw [hgrid]
  rfl

/-- What a program that reads the screen tells it by. -/
structure Agrees (s t : Screen) : Prop where
  size : s.size = t.size
  cells : ∀ row col, s.cellAt row col = t.cellAt row col
  cursor : s.cursor = t.cursor
  pen : s.pen = t.pen
  modes : s.modes = t.modes
  title : s.title = t.title
  region : s.region = t.region
  charset : s.charset = t.charset
  alternate : s.alternate = t.alternate

theorem Shows.agrees (h : Shows s t) : Agrees s t := by
  rcases h.behind with ⟨limit, scrollback, parser, response, revision, rfl⟩
  constructor
  all_goals
    intros
    rfl

/-- A write without its count: the events of the bytes. -/
theorem write_shows (s : Screen) (bytes : Bytes) :
    Shows (s.write bytes) (s.applyAll (s.parser.parse bytes).2) := by
  have hparsed : Shows { s with parser := (s.parser.parse bytes).1 } s := rfl
  unfold Screen.write
  split
  · next hnil =>
    rw [hnil]
    rfl
  · exact hparsed.applyAll _

/-- A reset screen goes on like a new one: whatever was in progress when ESC c came, and
whatever is written behind it, it agrees with a new screen of its size and its limit that only
the latter is written to. -/
theorem reset_agrees (h : s.Reachable) (bytes : Bytes) :
    Agrees (s.write (kEsc :: 0x63 :: bytes))
      ((Screen.new s.size s.scrollbackLimit).write bytes) := by
  have hwf := h.wf
  rcases VtParser.parse_reset hwf.parser with ⟨q, hreset, halike⟩
  have hparse : (s.parser.parse (kEsc :: 0x63 :: bytes)).2 =
      s.parser.interrupted ++ .esc 0x63 0 :: (VtParser.parse {} bytes).2 := by
    have hsplit : kEsc :: 0x63 :: bytes = [kEsc, 0x63] ++ bytes := rfl
    rw [hsplit, VtParser.parse_append, hreset, (VtParser.parse_alike halike bytes).2, List.append_assoc]
    rfl
  -- what was in progress is given up first
  have hsettled := hwf.settled hwf.parser
  have hfresh : Shows (s.settled s.parser).fullReset (Screen.new s.size s.scrollbackLimit) := by
    have hshown := fullReset_shows hsettled s.scrollbackLimit
    rwa [settled_size] at hshown
  have hleft : Shows (s.write (kEsc :: 0x63 :: bytes))
      ((s.settled s.parser).fullReset.applyAll (VtParser.parse {} bytes).2) := by
    have hwritten := write_shows s (kEsc :: 0x63 :: bytes)
    rw [hparse, applyAll_append, applyAll_cons] at hwritten
    exact hwritten
  have hright := write_shows (Screen.new s.size s.scrollbackLimit) bytes
  exact ((hleft.trans (hfresh.applyAll _)).trans (Eq.symm hright)).agrees

/-- A reset in the middle of a title, on the alternate screen, and a letter behind it. -/
theorem reset_agrees_inTitle :
    Agrees
      (((Screen.new { cols := 2, rows := 2 } 5).write (kEsc :: ascii "[?1049h" ++ kEsc :: ascii "]0;t")).write
        (kEsc :: 0x63 :: ascii "A"))
      ((Screen.new
          ((Screen.new { cols := 2, rows := 2 } 5).write
            (kEsc :: ascii "[?1049h" ++ kEsc :: ascii "]0;t")).size
          ((Screen.new { cols := 2, rows := 2 } 5).write
            (kEsc :: ascii "[?1049h" ++ kEsc :: ascii "]0;t")).scrollbackLimit).write (ascii "A")) :=
  reset_agrees ⟨_, _, [.write (kEsc :: ascii "[?1049h" ++ kEsc :: ascii "]0;t")], rfl⟩ (ascii "A")

end Screen

end Deskhub
