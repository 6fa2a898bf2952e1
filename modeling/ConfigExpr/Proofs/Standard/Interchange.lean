import ConfigExpr.Evaluator.Builtin
import ConfigExpr.Proofs.Outcome
import ConfigExpr.Proofs.Value.Interchange
import ConfigExpr.Standard.Functions

/-!
Functions take a text and its bytes for the same. A function that gives the same raw result for the
raw forms of its arguments gives interchangeable results for interchangeable arguments; this holds of
every function of the standard catalogue and of the evaluator's own, since each of them sees its
arguments only through coercions and kinds.
-/
namespace ConfigExpr.Standard
open Value Outcome

inductive AlikeOutcomes {ε : Type} : Except ε Value → Except ε Value → Prop where
  | value {v w : Value} (values : Interchangeable v w) (documents : v.toJson = w.toJson)
      (printed : v.compact = w.compact) : AlikeOutcomes (.ok v) (.ok w)
  | failure (fault : ε) : AlikeOutcomes (.error fault) (.error fault)

/-- The raw result of a function does not change if its arguments are made raw. -/
def IgnoresForm {ε : Type} (f : List Value → Except ε Value) : Prop :=
  ∀ args, raw <$> f (args.map raw) = raw <$> f args

section General
variable {ε : Type} {f : List Value → Except ε Value}

theorem alikeOutcomes_of_raw_eq {r₁ r₂ : Except ε Value} (same : raw <$> r₁ = raw <$> r₂) :
    AlikeOutcomes r₁ r₂ := by
  cases r₁ with
  | error fault =>
    cases r₂ with
    | error other => exact Except.error.inj same ▸ .failure fault
    | ok w => cases same
  | ok v =>
    cases r₂ with
    | error other => cases same
    | ok w =>
      have raws : v.raw = w.raw := Except.ok.inj same
      refine .value (interchangeable_of_raw_eq raws) ?_ ?_
      · rw [← toJson_raw v, raws, toJson_raw]
      · rw [← compact_raw v, raws, compact_raw]

theorem IgnoresForm.alike (ignores : IgnoresForm f) {args others : List Value}
    (each : InterchangeableItems args others) : AlikeOutcomes (f args) (f others) := by
  have raws := rawItems_eq_of_interchangeable each
  rw [rawItems_eq_map, rawItems_eq_map] at raws
  exact alikeOutcomes_of_raw_eq ((ignores args).symm.trans (raws ▸ ignores others))

theorem ignoresForm_of_eq (same : ∀ args, f (args.map raw) = f args) : IgnoresForm f :=
  fun args => congrArg (raw <$> ·) (same args)

end General

section Arguments
variable (args : List Value) (name : String) (index : Nat) (param : String)

theorem checkKinds_map_raw (s : Signature) (index : Nat) :
    HostFunction.checkKinds s index (args.map raw) = HostFunction.checkKinds s index args := by
  induction args generalizing index with
  | nil => rfl
  | cons arg rest ih =>
    simp only [List.map_cons, HostFunction.checkKinds, accepts_raw, kind_raw, ih]

theorem validate_map_raw (s : Signature) :
    HostFunction.validate s (args.map raw) = HostFunction.validate s args := by
  simp only [HostFunction.validate, List.length_map, checkKinds_map_raw]

theorem IgnoresForm.call {f : HostFunction} {context : Context}
    (body : IgnoresForm fun args => f.body args context) :
    IgnoresForm fun args => f.call args context := by
  intro args
  simp only [HostFunction.call, validate_map_raw]
  cases HostFunction.validate f.signature args with
  | error failure => rfl
  | ok _ => exact body args

@[simp] theorem argument_map_raw : argument (args.map raw) index = (argument args index).raw := by
  rw [argument, argument, List.getD_eq_getElem?_getD, List.getElem?_map, List.getD_eq_getElem?_getD]
  cases args[index]? <;> rfl

@[simp] theorem textArgument_map_raw :
    textArgument name (args.map raw) index param = textArgument name args index param := by
  simp only [textArgument, argument_map_raw, text?_raw, wrongType, kind_raw]

@[simp] theorem bytesArgument_map_raw :
    bytesArgument name (args.map raw) index param = bytesArgument name args index param := by
  simp only [bytesArgument, argument_map_raw, bytes?_raw, wrongType, kind_raw]

@[simp] theorem integerArgument?_map_raw :
    integerArgument? name (args.map raw) index param = integerArgument? name args index param := by
  simp only [integerArgument?, argument_map_raw, isNull_raw, integer?_raw, wrongType, kind_raw]

@[simp] theorem flagArgument_map_raw :
    flagArgument (args.map raw) index = flagArgument args index := by
  simp only [flagArgument, argument_map_raw, isTruthy_raw]

@[simp] theorem instantArgument_map_raw (context : Context) :
    instantArgument name (args.map raw) index param context =
      instantArgument name args index param context := by
  simp only [instantArgument, integerArgument?_map_raw]

@[simp] theorem joinedText_raw (v : Value) : joinedText name v.raw = joinedText name v := by
  simp only [joinedText, text?_raw]

end Arguments

/-- The functions that only coerce their arguments to texts, bytes, integers and flags. -/
def coercing : List HostFunction :=
  [md5, sha1, hash, hashHmac, currentTime, date, instantOfPhrase, base64Encode, urlEncode, lowerCase,
    upperCase, trim]

theorem body_of_coercing {f : HostFunction} (listed : f ∈ coercing) (context : Context)
    (args : List Value) : f.body (args.map raw) context = f.body args context := by
  simp only [coercing, List.mem_cons, List.not_mem_nil, or_false] at listed
  rcases listed with rfl | rfl | rfl | rfl | rfl | rfl | rfl | rfl | rfl | rfl | rfl | rfl <;>
    simp only [md5, sha1, plainDigest, hash, hashHmac, currentTime, date, instantOfPhrase,
      base64Encode, urlEncode, lowerCase, upperCase, trim, List.length_map, textArgument_map_raw,
      bytesArgument_map_raw, instantArgument_map_raw, flagArgument_map_raw]

section Operands
variable (v : Value)

theorem integerIn_raw (base : Nat) : integerIn base v.raw = integerIn base v := by
  cases v with
  | string s =>
    have decoded := Utf8.decodeLossy_encode s
    have coerced := integer?_raw (.string s)
    simp only [raw] at coerced
    simp only [raw, integerIn, decoded, coerced]
  | array items => cases items <;> rfl
  | object fields => cases fields <;> rfl
  | _ => rfl

@[simp] theorem integerOperand_raw : Template.integerOperand v.raw = Template.integerOperand v := by
  cases v with
  | array items => cases items <;> rfl
  | object fields => cases fields <;> rfl
  | string s => exact congrArg (·.getD 0) (integer?_raw (.string s))
  | _ => rfl

@[simp] theorem floatOperand_raw : Template.floatOperand v.raw = Template.floatOperand v := by
  cases v with
  | array items => cases items <;> rfl
  | object fields => cases fields <;> rfl
  | string s => exact congrArg (·.getD (.zero false)) (float?_raw (.string s))
  | _ => rfl

theorem pushDirective_raw (d : Template.Directive) (out : Template.Output) :
    Template.pushDirective d out v.raw = Template.pushDirective d out v := by
  simp only [Template.pushDirective, Template.show?, integerOperand_raw, floatOperand_raw, text?_raw]

theorem elements_raw (index : Nat) :
    elements index v.raw = List.map raw <$> elements index v := by
  cases v with
  | array items => exact congrArg Except.ok (rawItems_eq_map items)
  | object fields => exact congrArg Except.ok (map_snd_rawFields fields)
  | _ => rfl

end Operands

theorem step_map_raw (values : List Value) (state : Template.State) (piece : Template.Piece) :
    Template.step (values.map raw) state piece = Template.step values state piece := by
  cases piece with
  | literal c => rfl
  | fault fault => rfl
  | directive d =>
    rcases numbered : d.argument with _ | number <;>
      simp only [Template.step, numbered, List.getElem?_map, List.length_map]
    · cases values[state.next]? with
      | none => rfl
      | some v => simp only [Option.map_some, pushDirective_raw]
    · cases values[number - 1]? with
      | none => rfl
      | some v => simp only [Option.map_some, pushDirective_raw]

theorem format_map_raw (name template : String) (values : List Value) :
    Template.format name template (values.map raw) = Template.format name template values := by
  have steps : Template.step (values.map raw) = Template.step values :=
    funext fun state => funext fun piece => step_map_raw values state piece
  rw [Template.format, Template.format, Template.renderBytes, Template.renderBytes, steps]

theorem joinAll_map_raw (separator : String) (items : List Value) :
    joinAll separator (items.map raw) = joinAll separator items := by
  have each : (items.map raw).mapM (joinedText "implode") = items.mapM (joinedText "implode") := by
    simp only [List.mapM_map, Function.comp_def, joinedText_raw]
  rw [joinAll, joinAll, each]

theorem formatted_ignoresForm (context : Context) :
    IgnoresForm fun args => formatted.body args context :=
  ignoresForm_of_eq fun args => by
    simp only [formatted, textArgument_map_raw, ← List.map_tail, format_map_raw]

theorem implode_ignoresForm (context : Context) :
    IgnoresForm fun args => implode.body args context := by
  have joined (index : Nat) (separator : String) (v : Value) :
      (elements index v.raw >>= joinAll separator) = (elements index v >>= joinAll separator) := by
    rw [elements_raw]
    cases elements index v with
    | error failure => rfl
    | ok items => exact joinAll_map_raw separator items
  refine ignoresForm_of_eq fun args => ?_
  have separators := textArgument_map_raw args "implode" 0 "separator"
  match args with
  | [] => exact joined 0 "" .null
  | [v] => exact joined 0 "" v
  | [v, pieces] =>
    change (textArgument _ ([v, pieces].map raw) _ _ >>= fun separator =>
      elements 1 pieces.raw >>= joinAll separator) = _
    rw [separators]
    simp only [joined]
    rfl
  | v :: _ :: _ :: _ => exact joined 0 "" v

theorem integerValue_ignoresForm (context : Context) :
    IgnoresForm fun args => integerValue.body args context :=
  ignoresForm_of_eq fun args => by
    simp only [integerValue, integerArgument?_map_raw, argument_map_raw, integerIn_raw]

theorem stringValue_ignoresForm (context : Context) :
    IgnoresForm fun args => stringValue.body args context := by
  intro args
  simp only [stringValue, argument_map_raw]
  cases argument args 0 <;> rfl

theorem typeName_ignoresForm (context : Context) :
    IgnoresForm fun args => typeName.body args context :=
  ignoresForm_of_eq fun args => by
    simp only [typeName, argument_map_raw, typeName_raw]

theorem functions_ignoreForm {f : HostFunction} (listed : f ∈ functions) (context : Context) :
    IgnoresForm fun args => f.call args context := by
  refine IgnoresForm.call ?_
  have kinds : f ∈ coercing ∨ f ∈ [formatted, implode, integerValue, stringValue, typeName] := by
    simp only [functions, coercing, List.mem_cons, List.not_mem_nil, or_false] at listed ⊢
    grind
  rcases kinds with coerces | looks
  · exact ignoresForm_of_eq (body_of_coercing coerces context)
  · simp only [List.mem_cons, List.not_mem_nil, or_false] at looks
    rcases looks with rfl | rfl | rfl | rfl | rfl
    · exact formatted_ignoresForm context
    · exact implode_ignoresForm context
    · exact integerValue_ignoresForm context
    · exact stringValue_ignoresForm context
    · exact typeName_ignoresForm context

theorem joinBytes?_map_raw (args : List Value) :
    Builtin.joinBytes? (args.map raw) = Builtin.joinBytes? args := by
  have each : (args.map raw).mapM bytes? = args.mapM bytes? := by
    simp only [List.mapM_map, Function.comp_def, bytes?_raw]
  rw [Builtin.joinBytes?, Builtin.joinBytes?, each]

theorem bytes?_of_not_isBytes {v : Value} (noBytes : Builtin.isBytes v = false) :
    v.bytes? = v.text?.map Utf8.encode := by
  cases v with
  | bytes b => cases noBytes
  | _ => rfl

theorem exists_text_of_joined {args : List Value} {joined : List UInt8}
    (join : Builtin.joinBytes? args = some joined) (noBytes : args.any Builtin.isBytes = false) :
    ∃ text, joined = Utf8.encode text := by
  rw [Builtin.joinBytes?] at join
  obtain ⟨parts, all, rfl⟩ := Option.map_eq_some_iff.mp join
  replace all := mapM_eq_some.mp all
  clear join
  induction args generalizing parts with
  | nil =>
    obtain rfl := List.map_eq_nil_iff.mp all.symm
    exact ⟨"", rfl⟩
  | cons v rest ih =>
    rw [List.any_cons, Bool.or_eq_false_iff] at noBytes
    obtain ⟨first, others, rfl, held, later⟩ := List.map_eq_cons_iff.mp all.symm
    rw [bytes?_of_not_isBytes noBytes.1] at held
    obtain ⟨text, -, rfl⟩ := Option.map_eq_some_iff.mp held.symm
    obtain ⟨more, encoded⟩ := ih noBytes.2 others later.symm
    exact ⟨text ++ more, by rw [List.flatten_cons, encoded, Utf8.encode_append]⟩

theorem raw_concatenate (args : List Value) : raw <$> Builtin.concatenate args =
    match Builtin.joinBytes? args with
    | none => .error (.functionFailure "concat" Builtin.notJoined)
    | some joined => .ok (.bytes joined) := by
  rw [Builtin.concatenate]
  cases join : Builtin.joinBytes? args with
  | none => rfl
  | some joined =>
    cases some : args.any Builtin.isBytes with
    | true => rfl
    | false =>
      obtain ⟨text, rfl⟩ := exists_text_of_joined join some
      simp only [Utf8.decodeLossy_encode]
      rfl

theorem concatenate_ignoresForm : IgnoresForm Builtin.concatenate := by
  intro args
  rw [raw_concatenate, raw_concatenate, joinBytes?_map_raw]

theorem fallback_ignoresForm : IgnoresForm Builtin.fallback := by
  intro args
  match args with
  | [] | [_] | _ :: _ :: _ :: _ => rfl
  | [v, other] =>
    simp only [Builtin.fallback, List.map_cons, List.map_nil, isEmpty_raw]
    cases v.isEmpty with
    | true => exact congrArg Except.ok (raw_raw other)
    | false => exact congrArg Except.ok (raw_raw v)

theorem builtin_ignoresForm (f : Builtin) : IgnoresForm f.call := by
  cases f with
  | concat => exact concatenate_ignoresForm
  | ifEmpty => exact fallback_ignoresForm

theorem texts_and_bytes_are_interchangeable (args others : List Value)
    (each : InterchangeableItems args others) :
    (∀ f ∈ functions, ∀ context, AlikeOutcomes (f.call args context) (f.call others context)) ∧
      ∀ f : Builtin, AlikeOutcomes (f.call args) (f.call others) :=
  ⟨fun _ listed context => (functions_ignoreForm listed context).alike each,
    fun f => (builtin_ignoresForm f).alike each⟩

theorem texts_and_bytes_are_interchangeable_join :
    let args : List Value := [.string ",", .array [.string "a", .bytes [0xFF]]]
    let others : List Value := [.bytes [44], .array [.bytes [97], .bytes [0xFF]]]
    let texts : List Value := [.string "a", .string "b"]
    let mixed : List Value := [.string "a", .bytes [98]]
    (InterchangeableItems args others ∧
      ∀ context, AlikeOutcomes (implode.call args context) (implode.call others context)) ∧
    (InterchangeableItems texts mixed ∧
      AlikeOutcomes (Builtin.concat.call texts) (Builtin.concat.call mixed) ∧
      Builtin.concat.call mixed = .ok (.bytes [97, 98])) := by
  intro args others texts mixed
  have each : InterchangeableItems args others :=
    .cons (.encoded ",") (.cons (.array (.cons (.encoded "a") (.cons (.same _) .nil))) .nil)
  have items : InterchangeableItems texts mixed := .cons (.same _) (.cons (.encoded "b") .nil)
  obtain ⟨alike, -⟩ := texts_and_bytes_are_interchangeable args others each
  obtain ⟨-, builtins⟩ := texts_and_bytes_are_interchangeable texts mixed items
  exact ⟨⟨each, alike implode (by simp [functions])⟩, items, builtins .concat, rfl⟩

end ConfigExpr.Standard
