import ConfigExpr.Proofs.Outcome
import ConfigExpr.Proofs.Text.Utf8Encoding
import ConfigExpr.Template.Render

/-!
How long formatted text gets. A padded field is held against the limit together with all output in
front of it; a literal character and a raw byte are written without a look at the limit. So output
is within the limit whenever a field has just been written, and what a template writes behind its
last field comes on top.
-/
namespace ConfigExpr.Template

/-- Whether the piece is refused when it would take the output past the limit. -/
def Piece.isMeasured : Piece → Bool
  | .directive d => d.specifier != 'c'
  | _ => false

/-- The bytes of a piece that is written whatever the output is. -/
def Piece.unmeasuredSize : Piece → Nat
  | .literal c => (Utf8.encodeChar c).length
  | .directive _ => 1
  | .fault _ => 0

/-- The bytes that are written behind the last measured piece, counted anew from each such piece. -/
def endingSize (pieces : List Piece) : Nat :=
  pieces.foldl (fun size piece => if piece.isMeasured then 0 else size + piece.unmeasuredSize) 0

theorem endingSize_measured (done : List Piece) {piece : Piece}
    (measured : piece.isMeasured = true) : endingSize (done ++ [piece]) = 0 := by
  rw [endingSize, List.foldl_append, List.foldl_cons, List.foldl_nil, if_pos measured]

theorem endingSize_unmeasured (done : List Piece) {piece : Piece}
    (unmeasured : piece.isMeasured = false) :
    endingSize (done ++ [piece]) = endingSize done + piece.unmeasuredSize := by
  rw [endingSize, List.foldl_append, List.foldl_cons, List.foldl_nil, unmeasured,
    if_neg Bool.false_ne_true, endingSize]

theorem Output.size_push (out : Output) (segment : List UInt8) :
    (out.push segment).size = segment.length + out.size := rfl

section Fields
variable {d : Directive} {out out' : Output} {sign content : List Char} {v : Value}

/-- The bytes that a field and its padding take. -/
def fieldSize (d : Directive) (sign content : List Char) : Nat :=
  (Utf8.encodeChars (sign ++ content)).length +
    (d.width - (sign.length + content.length)) * (Utf8.encodeChar d.layout.padding).length

theorem length_encodeChars_replicate (n : Nat) (c : Char) :
    (Utf8.encodeChars (List.replicate n c)).length = n * (Utf8.encodeChar c).length := by
  induction n with
  | zero => simp [Utf8.encodeChars]
  | succ n ih =>
    rw [List.replicate_succ, ← List.singleton_append, Utf8.encodeChars_append, List.length_append,
      ih, Nat.succ_mul, Nat.add_comm]
    simp [Utf8.encodeChars]

theorem length_encodeChars_layOut (layout : Layout) (sign content fill : List Char) :
    (Utf8.encodeChars (layOut layout sign content fill)).length =
      (Utf8.encodeChars (sign ++ content)).length + (Utf8.encodeChars fill).length := by
  rw [layOut]
  split
  next => simp only [Utf8.encodeChars_append, List.length_append]
  split
  all_goals
    simp only [Utf8.encodeChars_append, List.length_append]
    omega

theorem pushField_eq_ok (fits : out.size + fieldSize d sign content ≤ outputLimit) :
    ∃ next, pushField d out sign content = .ok next ∧
      next.size = out.size + fieldSize d sign content := by
  rw [fieldSize, ← Nat.add_assoc] at fits ⊢
  rw [pushField, if_neg (Nat.not_lt.mpr fits)]
  refine ⟨_, rfl, ?_⟩
  rw [Output.size_push, length_encodeChars_layOut, length_encodeChars_replicate]
  omega

theorem fits_of_pushField (pushed : pushField d out sign content = .ok out') :
    out.size + fieldSize d sign content ≤ outputLimit := by
  rw [pushField] at pushed
  rw [fieldSize, ← Nat.add_assoc]
  dsimp only at pushed
  split at pushed
  next => cases pushed
  next fits => exact Nat.not_lt.mp fits

theorem size_of_pushField (pushed : pushField d out sign content = .ok out') :
    out'.size ≤ outputLimit := by
  have fits := fits_of_pushField pushed
  obtain ⟨next, same, size⟩ := pushField_eq_ok fits
  obtain rfl := Except.ok.inj (same.symm.trans pushed)
  rwa [size]

theorem specifier_of_show? {b : UInt8} (shows : show? d v = .ok (.rawByte b)) :
    d.specifier = 'c' := by
  unfold show? at shows
  split at shows
  case h_1 =>
    dsimp only at shows
    split at shows
    all_goals cases shows
  case h_8 _ raw => exact raw
  all_goals cases shows

theorem specifier_of_show?_field (shows : show? d v = .ok (.field sign content)) :
    d.specifier ≠ 'c' := by
  intro raw
  rw [show?, raw] at shows
  cases shows

end Fields

/-- Output in two parts: the first is within the limit, and the other was written behind the last
measured piece. -/
def Bounded (done : List Piece) (bytes : List UInt8) : Prop :=
  ∃ front ending, bytes = front ++ ending ∧ front.length ≤ outputLimit ∧
    ending.length = endingSize done

theorem Bounded.of_measured (done : List Piece) {piece : Piece} {bytes : List UInt8}
    (measured : piece.isMeasured = true) (fits : bytes.length ≤ outputLimit) :
    Bounded (done ++ [piece]) bytes :=
  ⟨bytes, [], (List.append_nil bytes).symm, fits, (endingSize_measured done measured).symm⟩

theorem Bounded.append {done : List Piece} {piece : Piece} {bytes written : List UInt8}
    (bounded : Bounded done bytes) (unmeasured : piece.isMeasured = false)
    (size : written.length = piece.unmeasuredSize) :
    Bounded (done ++ [piece]) (bytes ++ written) := by
  obtain ⟨front, ending, rfl, fits, length⟩ := bounded
  refine ⟨front, ending ++ written, List.append_assoc front ending written, fits, ?_⟩
  rw [List.length_append, length, size, endingSize_unmeasured done unmeasured]

theorem Bounded.of_pushDirective {done : List Piece} {d : Directive} {out out' : Output} {v : Value}
    (bounded : Bounded done out.bytes) (pushed : pushDirective d out v = .ok out') :
    Bounded (done ++ [.directive d]) out'.bytes := by
  unfold pushDirective at pushed
  split at pushed
  next => cases pushed
  next b shows =>
    obtain rfl := Except.ok.inj pushed
    rw [Output.bytes_push]
    exact bounded.append (by simp [Piece.isMeasured, specifier_of_show? shows]) rfl
  next sign content shows =>
    have measured := specifier_of_show?_field shows
    apply Bounded.of_measured
    · simp [Piece.isMeasured, measured]
    · rw [← Output.size_eq_length_bytes]
      exact size_of_pushField pushed

theorem Bounded.of_step {values : List Value} {done : List Piece} {piece : Piece} {s s' : State}
    (bounded : Bounded done s.out.bytes) (stepped : step values s piece = .ok s') :
    Bounded (done ++ [piece]) s'.out.bytes := by
  cases piece with
  | literal c =>
    obtain rfl := Except.ok.inj stepped
    rw [Output.bytes_push]
    exact bounded.append rfl rfl
  | fault f => cases stepped
  | directive d =>
    unfold step at stepped
    dsimp only at stepped
    split at stepped
    next => cases stepped
    next v found =>
      obtain ⟨out, pushed, rfl⟩ := Outcome.map_eq_ok.mp stepped
      exact bounded.of_pushDirective pushed

theorem Bounded.of_run {values : List Value} {done pieces : List Piece} {s s' : State}
    (bounded : Bounded done s.out.bytes) (ran : pieces.foldlM (step values) s = .ok s') :
    Bounded (done ++ pieces) s'.out.bytes := by
  induction pieces generalizing done s with
  | nil =>
    obtain rfl := Except.ok.inj ran
    rwa [List.append_nil]
  | cons piece rest ih =>
    rw [List.foldlM_cons] at ran
    obtain ⟨next, stepped, others⟩ := Outcome.bind_eq_ok.mp ran
    rw [← List.singleton_append, ← List.append_assoc]
    exact ih (bounded.of_step stepped) others

theorem bounded_renderBytes {template : String} {values : List Value} {bytes : List UInt8}
    (rendered : renderBytes template values = .ok bytes) :
    Bounded (parse template.toList) bytes := by
  obtain ⟨s, ran, rfl⟩ := Outcome.map_eq_ok.mp rendered
  have bounded : Bounded [] Output.empty.bytes := ⟨[], [], rfl, Nat.zero_le _, rfl⟩
  have run := bounded.of_run ran
  rwa [List.nil_append] at run

theorem bytes?_ofBytes (bytes : List UInt8) : (ofBytes bytes).bytes? = some bytes := by
  rw [ofBytes]
  split
  next text decoded => exact congrArg some (Utf8.encode_of_decode? decoded)
  next => rfl

/-- The result of a format is within the limit up to its last measured piece, and what the format
writes behind that piece, without a look at the limit, is all that can take it further. -/
theorem only_the_ending_exceeds_the_limit {name template : String} {values : List Value} {v : Value}
    (formatted : format name template values = .ok v) :
    ∃ front ending, v.bytes? = some (front ++ ending) ∧ front.length ≤ outputLimit ∧
      ending.length = endingSize (parse template.toList) := by
  unfold format at formatted
  split at formatted
  next bytes rendered =>
    obtain rfl := Except.ok.inj formatted
    obtain ⟨front, ending, rfl, fits, length⟩ := bounded_renderBytes rendered
    exact ⟨front, ending, bytes?_ofBytes _, fits, length⟩
  next => cases formatted

theorem only_the_ending_exceeds_the_limit_percent :
    format "sprintf" "%3s%%" [.string "ab"] = .ok (.string " ab%") ∧
      ∃ front ending, (Value.string " ab%").bytes? = some (front ++ ending) ∧
        front.length ≤ outputLimit ∧ ending.length = 1 := by
  have rendered : renderBytes "%3s%%" [.string "ab"] = .ok [32, 97, 98, 37] := by rfl
  have formatted : format "sprintf" "%3s%%" [.string "ab"] = .ok (.string " ab%") := by
    rw [format, rendered]
    rfl
  exact ⟨formatted, only_the_ending_exceeds_the_limit formatted⟩

def limitWide : Directive :=
  ⟨none, plain, outputLimit, none, 's'⟩

/-- The field fills the output up to the limit, and the percent sign behind it goes past. -/
theorem percent_behind_full_output :
    ∃ v bytes, format "sprintf" "%1048576s%%" [.string ""] = .ok v ∧ v.bytes? = some bytes ∧
      outputLimit < bytes.length := by
  have pieces : parse "%1048576s%%".toList = [.directive limitWide, .literal '%'] := by decide
  have size : fieldSize limitWide [] [] = outputLimit := by decide
  obtain ⟨out, pushed, full⟩ : ∃ out, pushField limitWide .empty [] [] = .ok out ∧ out.size = _ :=
    pushField_eq_ok (by rw [size]; decide)
  have first : step [.string ""] ⟨.empty, 0⟩ (.directive limitWide) = .ok ⟨out, 1⟩ :=
    congrArg (Except.map fun out => State.mk out 1) pushed
  have rendered : renderBytes "%1048576s%%" [.string ""] =
      .ok (out.push (Utf8.encodeChar '%')).bytes := by
    rw [renderBytes, pieces, List.foldlM_cons, first]
    rfl
  refine ⟨ofBytes (out.push (Utf8.encodeChar '%')).bytes, _, ?_, bytes?_ofBytes _, ?_⟩
  · rw [format, rendered]
  · rw [← Output.size_eq_length_bytes, Output.size_push, full, size]
    decide

end ConfigExpr.Template
