import ByteFormat.Proofs.Call.Agreement
import ByteFormat.Proofs.Format.Tiling
import ByteFormat.Proofs.Print.Calls

/-! # Formats compose

Printing one format behind another writes what the first writes and then what the second writes with
the arguments that the first leaves over (`print_compositional`). The tokens do not simply follow
each other, since a literal run may reach over the cut. Taken byte by byte, however, literal runs
are alike on both sides, and neither the bytes nor the degradations of a plan depend on how its
literal bytes are grouped.
-/

namespace ByteFormat

/-- How many arguments tokens ask for. -/
def demand (list : List Token) : Nat :=
  (list.filterMap Token.taker?).length

namespace Token

/-- A token with its literal bytes one at a time. -/
def atoms : Token → List Token
  | .literal bytes => bytes.map fun byte => .literal [byte]
  | .directive parsed => [.directive parsed]

/-- The bytes that are written at a token whatever the arguments are. -/
def fixedBytes : Token → List UInt8
  | .literal bytes => bytes
  | .directive parsed =>
      match parsed.specifier with
      | .echo byte => [byte]
      | .convert _ => []

/-- Up to the grouping of literal bytes, a scan starts with the literal bytes in front. -/
private theorem atoms_scan_dropWhile (body : List UInt8) :
    (scan body).flatMap atoms =
      ((body.takeWhile isLiteral).map fun byte => .literal [byte]) ++
        (scan (body.dropWhile isLiteral)).flatMap atoms := by
  cases body with
  | nil => rfl
  | cons byte rest =>
    by_cases literal : isLiteral byte = true
    · have read : read? (byte :: rest) =
          some (.literal (byte :: rest.takeWhile isLiteral), rest.dropWhile isLiteral) :=
        if_pos literal
      rw [scan_of_read?_eq_some read, List.takeWhile_cons_of_pos literal,
        List.dropWhile_cons_of_pos literal, List.flatMap_cons, atoms]
    · rw [List.takeWhile_cons_of_neg literal, List.dropWhile_cons_of_neg literal, List.map_nil,
        List.nil_append]

/-- Up to the grouping of literal bytes, a literal run is scanned alike whatever follows it. -/
private theorem atoms_scan_run {run : List UInt8} (clean : '%'.toUInt8 ∉ run) (rest : List UInt8) :
    (scan (run ++ rest)).flatMap atoms =
      (run.map fun byte => .literal [byte]) ++ (scan rest).flatMap atoms := by
  have literal := isLiteral_of_notMem clean
  rw [atoms_scan_dropWhile (run ++ rest), List.takeWhile_append_of_pos literal,
    List.dropWhile_append_of_pos literal, List.map_append, List.append_assoc,
    ← atoms_scan_dropWhile rest]

private theorem atoms_scan_of_read? {body rest : List UInt8} {token : Token}
    (read : read? body = some (token, rest)) (more : List UInt8) :
    (scan (body ++ more)).flatMap atoms = token.atoms ++ (scan (rest ++ more)).flatMap atoms := by
  obtain ⟨text, rfl, written, _⟩ := read?_eq_some_iff.mp read
  rw [List.append_assoc]
  cases written with
  | literal nonempty clean => exact atoms_scan_run clean (rest ++ more)
  | directive greedy =>
    rw [scan_of_read?_eq_some (greedy.read?_bytes (rest ++ more)), List.flatMap_cons]

end Token

private theorem Cursor.Run.atoms_scan {cursor after : Cursor} {taken : List Token}
    (run : cursor.Run taken after) (more : List UInt8) :
    (Token.scan (cursor.remaining ++ more)).flatMap Token.atoms =
      taken.flatMap Token.atoms ++ (Token.scan (after.remaining ++ more)).flatMap Token.atoms := by
  induction run with
  | nil cursor => rfl
  | cons step run ih =>
    rw [Token.atoms_scan_of_read? (next_remaining step), ih, List.flatMap_cons, List.append_assoc]

/-- Up to the grouping of literal bytes, a format that ends outside of directives has its tokens in
front of those of any other. -/
theorem atoms_tokens_append {format : List UInt8} (clean : 0 ∉ format)
    (whole : ¬ (Cursor.start format).RunsIntoCut) (more : List UInt8) :
    (tokens (format ++ more)).flatMap Token.atoms =
      (tokens format ++ tokens more).flatMap Token.atoms := by
  have same : untilNul format = format := untilNul_of_notMem clean
  obtain ⟨after, run, ended⟩ := Cursor.exists_run_to_end whole
  have remaining : (Cursor.start format).remaining = format := same
  have split := run.atoms_scan (untilNul more)
  rw [ended, remaining, List.nil_append] at split
  rw [tokens, untilNul_append clean, split, List.flatMap_append, tokens, tokens, same]

/-- An action with its literal bytes one at a time. -/
def Action.atoms : Action → List Action
  | .literal bytes => bytes.map fun byte => .literal [byte]
  | action => [action]

section Demand

variable {directive : Directive} {rest : List Token}

theorem demand_cons_literal (bytes : List UInt8) :
    demand (.literal bytes :: rest) = demand rest := rfl

private theorem demand_cons_echo {byte : UInt8} (specifier : directive.specifier = .echo byte) :
    demand (.directive directive :: rest) = demand rest := by
  simp [demand, Token.taker?, specifier]

theorem demand_cons_convert {conversion : Conversion}
    (specifier : directive.specifier = .convert conversion) :
    demand (.directive directive :: rest) = demand rest + 1 := by
  simp [demand, Token.taker?, specifier]

end Demand

/-- Tokens are planned with the arguments that those in front of them leave over. -/
theorem plan_append (first second : List Token) (arguments : List Argument) :
    plan (first ++ second) arguments =
      plan first arguments ++ plan second (arguments.drop (demand first)) := by
  induction first generalizing arguments with
  | nil => rfl
  | cons token rest ih =>
    cases token with
    | literal bytes => simp [plan, ih, demand_cons_literal]
    | directive directive =>
      cases specifier : directive.specifier with
      | echo byte => simp [plan, specifier, ih, demand_cons_echo specifier]
      | convert conversion =>
        cases arguments with
        | nil => simp [plan, specifier, ih]
        | cons argument arguments => simp [plan, specifier, ih, demand_cons_convert specifier]

/-- Arguments beyond the demand have no part in the plan. -/
theorem plan_take (list : List Token) (arguments : List Argument) :
    plan list (arguments.take (demand list)) = plan list arguments := by
  induction list generalizing arguments with
  | nil => rfl
  | cons token rest ih =>
    cases token with
    | literal bytes => simp [plan, ih, demand_cons_literal]
    | directive directive =>
      cases specifier : directive.specifier with
      | echo byte => simp [plan, specifier, ih, demand_cons_echo specifier]
      | convert conversion =>
        cases arguments with
        | nil => simp [plan, specifier]
        | cons argument arguments => simp [plan, specifier, ih, demand_cons_convert specifier]

/-- The arguments that are served are the first ones, as many as there are and are asked for. -/
private theorem arguments_servings_plan (list : List Token) (arguments : List Argument) :
    (servings (plan list arguments)).map Serving.argument =
      arguments.take (min (demand list) arguments.length) := by
  have few : (arguments.take (demand list)).length ≤ (list.filterMap Token.taker?).length :=
    List.length_take_le _ _
  rw [← plan_take, servings_plan, List.map_map, ← List.take_eq_take_min]
  exact List.map_snd_zip few

private theorem bytes_plan_nil (profile : Profile) (list : List Token) :
    (plan list []).flatMap (Action.bytes profile) = list.flatMap Token.fixedBytes := by
  induction list with
  | nil => rfl
  | cons token rest ih =>
    cases token with
    | literal bytes => simp [plan, Action.bytes, Token.fixedBytes, ih]
    | directive directive =>
      cases specifier : directive.specifier with
      | echo byte => simp [plan, specifier, Action.bytes, Token.fixedBytes, ih]
      | convert conversion => simp [plan, specifier, Action.bytes, Token.fixedBytes, ih]

private theorem plan_run (run : List UInt8) (list : List Token) (arguments : List Argument) :
    plan ((run.map fun byte => .literal [byte]) ++ list) arguments =
      (run.map fun byte => .literal [byte]) ++ plan list arguments := by
  induction run with
  | nil => rfl
  | cons byte rest ih => simp [plan, ih]

/-- The plan groups literal bytes as the tokens do. -/
private theorem plan_atoms (list : List Token) (arguments : List Argument) :
    plan (list.flatMap Token.atoms) arguments = (plan list arguments).flatMap Action.atoms := by
  induction list generalizing arguments with
  | nil => rfl
  | cons token rest ih =>
    cases token with
    | literal bytes => simp [Token.atoms, Action.atoms, plan, plan_run, ih]
    | directive directive =>
      cases specifier : directive.specifier with
      | echo byte => simp [Token.atoms, Action.atoms, plan, specifier, ih]
      | convert conversion =>
        cases arguments with
        | nil => simp [Token.atoms, Action.atoms, plan, specifier, ih]
        | cons argument arguments => simp [Token.atoms, Action.atoms, plan, specifier, ih]

private theorem bytes_atoms (profile : Profile) (actions : List Action) :
    (actions.flatMap Action.atoms).flatMap (Action.bytes profile) =
      actions.flatMap (Action.bytes profile) := by
  rw [List.flatMap_assoc]
  congr 1
  funext action
  cases action with
  | literal run => simp [Action.atoms, Action.bytes, List.flatMap_map]
  | echo byte => rfl
  | serve serving => exact List.append_nil _
  | skip conversion => rfl

private theorem degradations_atoms (actions : List Action) :
    (actions.flatMap Action.atoms).filterMap Action.degradation? =
      actions.filterMap Action.degradation? := by
  rw [List.filterMap_flatMap, List.filterMap_eq_flatMap_toList]
  congr 1
  funext action
  cases action with
  | literal run => simp [Action.atoms, Action.degradation?]
  | echo byte => rfl
  | serve serving => rfl
  | skip conversion => rfl

/-- Up to the grouping of literal bytes, a format that ends outside of directives is carried out
before what follows it, which gets the arguments left over. -/
theorem plan_tokens_append {format : List UInt8} (clean : 0 ∉ format)
    (whole : ¬ (Cursor.start format).RunsIntoCut) (more : List UInt8)
    (arguments : List Argument) :
    (plan (tokens (format ++ more)) arguments).flatMap Action.atoms =
      (plan (tokens format) arguments ++
        plan (tokens more) (arguments.drop (demand (tokens format)))).flatMap Action.atoms := by
  rw [← plan_atoms, atoms_tokens_append clean whole, plan_atoms, plan_append]

theorem printBytes_append {format : List UInt8} (clean : 0 ∉ format)
    (whole : ¬ (Cursor.start format).RunsIntoCut) (profile : Profile) (more : List UInt8)
    (arguments : List Argument) :
    printBytes profile (format ++ more) arguments =
      printBytes profile format arguments ++
        printBytes profile more (arguments.drop (demand (tokens format))) := by
  simp only [printBytes_eq_plan]
  rw [← bytes_atoms, plan_tokens_append clean whole, bytes_atoms, List.flatMap_append]

theorem degradations_append {format : List UInt8} (clean : 0 ∉ format)
    (whole : ¬ (Cursor.start format).RunsIntoCut) (profile : Profile) (more : List UInt8)
    (arguments : List Argument) {σ : Type} [Sink σ] (sink : σ) :
    (print profile (format ++ more) arguments sink).degradations =
      (print profile format arguments sink).degradations ++
        (print profile more (arguments.drop (demand (tokens format))) sink).degradations := by
  simp only [print_eq_plan]
  rw [← degradations_atoms, plan_tokens_append clean whole, degradations_atoms,
    List.filterMap_append]

/-- Printing is compositional. Behind a format that ends outside of directives, any other format
writes and reports what it does alone with the arguments left over. A format is given the first
arguments, as many as it asks for and there are; those beyond have no effect on it. Once the
arguments have run out, conversions write nothing, and literal runs and echoed bytes still do. -/
theorem print_compositional (profile : Profile) (format : List UInt8)
    (arguments : List Argument) :
    (0 ∉ format → ¬ (Cursor.start format).RunsIntoCut → ∀ more : List UInt8,
      printBytes profile (format ++ more) arguments =
        printBytes profile format arguments ++
          printBytes profile more (arguments.drop (demand (tokens format))) ∧
      ∀ {σ : Type} [Sink σ] (sink : σ),
        (print profile (format ++ more) arguments sink).degradations =
          (print profile format arguments sink).degradations ++
            (print profile more (arguments.drop (demand (tokens format))) sink).degradations) ∧
    (∀ {σ : Type} [Sink σ] (sink : σ),
      (print profile format arguments sink).sink =
        (plan (tokens format) arguments).foldl (Action.run profile) sink) ∧
    (servings (plan (tokens format) arguments)).map Serving.argument =
      arguments.take (min (demand (tokens format)) arguments.length) ∧
    (∀ {σ : Type} [Sink σ] (sink : σ),
      print profile format (arguments.take (demand (tokens format))) sink =
        print profile format arguments sink) ∧
    ∀ before after, tokens format = before ++ after → arguments.length ≤ demand before →
      printBytes profile format arguments =
        (printTokens profile before arguments Collector.empty).sink.toList ++
          after.flatMap Token.fixedBytes := by
  refine ⟨?_, ?_, arguments_servings_plan (tokens format) arguments, ?_, ?_⟩
  · intro clean whole more
    exact ⟨printBytes_append clean whole profile more arguments,
      degradations_append clean whole profile more arguments⟩
  · intro σ _ sink
    rw [print_eq_plan]
  · intro σ _ sink
    rw [print_eq_plan, print_eq_plan, plan_take]
  · intro before after split exhausted
    rw [printBytes_eq_plan, split, plan_append, List.drop_eq_nil_of_le exhausted,
      List.flatMap_append, bytes_plan_nil, toList_printTokens]

/-- Behind `a%d`, which takes the only argument, `b%s%%c%u` writes its literal bytes and the echoed
percent sign, and reports what it lacks. -/
theorem print_compositional_exhausted :
    printBytes { wide := true } (utf8 "a%d" ++ utf8 "b%s%%c%u") [.int 7] =
      utf8 "a7" ++ utf8 "b%c" ∧
    (print { wide := true } (utf8 "a%d" ++ utf8 "b%s%%c%u") [.int 7] Collector.empty).degradations =
      [.unsupplied .text, .unrecognized '%'.toUInt8, .unsupplied .unsigned] := by
  have whole : ¬ (Cursor.start (utf8 "a%d")).RunsIntoCut := by
    intro cut
    have refused := Call.slots?_of_runsIntoCut cut
    exact absurd refused (by decide)
  obtain ⟨compose, _⟩ := print_compositional { wide := true } (utf8 "a%d") [.int 7]
  obtain ⟨_, degradations⟩ := compose (by decide) whole (utf8 "b%s%%c%u")
  obtain ⟨_, _, _, _, exhausted⟩ :=
    print_compositional { wide := true } (utf8 "a%d" ++ utf8 "b%s%%c%u") [.int 7]
  have split : tokens (utf8 "a%d" ++ utf8 "b%s%%c%u") =
      tokens (utf8 "a%d") ++ tokens (utf8 "b%s%%c%u") := by
    decide +kernel
  refine ⟨(exhausted _ _ split (by decide +kernel)).trans ?_,
    (degradations Collector.empty).trans ?_⟩
  · decide +kernel
  · decide +kernel

end ByteFormat
