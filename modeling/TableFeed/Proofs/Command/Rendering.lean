import TableFeed.Outcome
import TableFeed.Proofs.Command.Shown
import TableFeed.Proofs.Command.Verdict
import TableFeed.Proofs.Scan.Blanks
import TableFeed.Proofs.Scan.Tiling

/-!
# What is shown tells the outcome

An outcome is shown in one of four styles. The main statement says that in each of them the text
shown tells the command, or that there is none and with which message, and that it tells the tokens
if they are shown. As plain text the tokens are shown as they are, so this needs texts of one line:
then each token is shown on one line, and the result on the last one.
-/

namespace TableFeed

namespace Outcome

/-- The same command, or reasons with the same message. -/
inductive SameResult : Except CommandError Command → Except CommandError Command → Prop
  | command (command : Command) : SameResult (.ok command) (.ok command)
  | message {reason other : CommandError} (same : reason.message = other.message) :
      SameResult (.error reason) (.error other)

/-- As plain text, each token is shown on a line of its own, and the result on the last line. -/
def Lined (outcome : Outcome) : Prop :=
  (outcome.plain true).toList.splitOn '\n' =
    outcome.tokens.map (fun token => (token.kind.spelling ++ "  " ++ token.text).toList) ++
      [outcome.resultLine.toList]

/-- The outcomes agree as far as the style shows them. -/
structure Agrees (style : Style) (first second : Outcome) : Prop where
  result : SameResult first.result second.result
  tokens : style.tokens = true → first.tokens = second.tokens
  lined : style = ⟨true, false⟩ → first.Lined ∧ second.Lined

section Json

variable {first second : Outcome}

theorem sameResult_of_member (same : first.resultMember = second.resultMember) :
    SameResult first.result second.result := by
  rcases first with ⟨_, reason | command⟩ <;> rcases second with ⟨_, other | other⟩
  · exact .message (by simpa [resultMember] using same)
  · simp [resultMember] at same
  · simp [resultMember] at same
  · have values : command.json = other.json := by simpa [resultMember] using same
    obtain rfl := Command.json_injective values
    exact .command command

theorem agree_of_json {withTokens : Bool}
    (same : (first.json withTokens).write = (second.json withTokens).write) :
    SameResult first.result second.result ∧ (withTokens = true → first.tokens = second.tokens) := by
  have values := JsonValue.write_injective same
  cases withTokens with
  | false =>
      have members : first.resultMember = second.resultMember := by simpa [json] using values
      exact ⟨sameResult_of_member members, nofun⟩
  | true =>
      obtain ⟨members, tokens⟩ : first.resultMember = second.resultMember ∧
          first.tokens.map Token.json = second.tokens.map Token.json := by
        simpa [json] using values
      have injective := List.map_injective_iff.mpr Token.json_injective
      exact ⟨sameResult_of_member members, fun _ => injective tokens⟩

end Json

section Plain

variable {first second : Outcome}

/-- The title in front of the line tells the kind of the command, and no title is the one of a
message. -/
theorem sameResult_of_resultLine (same : first.resultLine = second.resultLine) :
    SameResult first.result second.result := by
  have apart (command : Command) (reason : CommandError) :
      command.kind.title ++ ": " ++ command.term.line ≠ "error: " ++ reason.message := by
    intro same
    have cut : command.kind.title.toList ++ ':' :: (" " ++ command.term.line).toList =
        "error".toList ++ ':' :: (" " ++ reason.message).toList := by
      simpa using congrArg String.toList same
    have title := (cut_unique command.kind.colon_notMem_title (by decide) cut).1
    exact command.kind.title_ne_error (String.toList_inj.mp title)
  rcases first with ⟨_, reason | command⟩ <;> rcases second with ⟨_, other | other⟩
  · exact .message (by simpa [resultLine] using same)
  · exact (apart other reason same.symm).elim
  · exact (apart command other same).elim
  · have cut : command.kind.title.toList ++ ':' :: (" " ++ command.term.line).toList =
        other.kind.title.toList ++ ':' :: (" " ++ other.term.line).toList := by
      simpa [resultLine] using congrArg String.toList same
    obtain ⟨titles, behind⟩ :=
      cut_unique command.kind.colon_notMem_title other.kind.colon_notMem_title cut
    have kinds := Command.Kind.title_injective (String.toList_inj.mp titles)
    have lines : command.term.line = other.term.line := by
      simpa using String.toList_inj.mp behind
    obtain rfl := Command.eq_of_line kinds lines
    exact .command command

theorem newline_notMem_spelling (kind : Token.Kind) : '\n' ∉ kind.spelling.toList := by
  cases kind <;> decide

/-- The characters of a kind's spelling up to the first blank tell the kind. -/
theorem find?_spelling (kind : Token.Kind) (later : List Char) :
    Token.Kind.all.find? (fun other => other.spelling.toList.takeWhile (· != ' ') ==
      (kind.spelling.toList ++ ' ' :: later).takeWhile (· != ' ')) = some kind := by
  cases kind <;> rfl

theorem tokenLine_injective : Function.Injective fun token : Token =>
    (token.kind.spelling ++ "  " ++ token.text).toList := by
  rintro ⟨kind, text⟩ ⟨otherKind, otherText⟩ same
  have lines : kind.spelling.toList ++ ' ' :: (" " ++ text).toList =
      otherKind.spelling.toList ++ ' ' :: (" " ++ otherText).toList := by
    simpa using same
  have found := find?_spelling kind (" " ++ text).toList
  rw [lines, find?_spelling] at found
  obtain rfl := Option.some.inj found
  have texts : text.toList = otherText.toList := by simpa using same
  rw [String.toList_inj.mp texts]

theorem lined_of_free {outcome : Outcome}
    (texts : ∀ token ∈ outcome.tokens, '\n' ∉ token.text.toList)
    (result : '\n' ∉ outcome.resultLine.toList) : outcome.Lined := by
  have joined (tokens : List Token) (last : List Char) :
      (String.join (tokens.map tokenLine)).toList ++ last = ['\n'].intercalate (tokens.map
        (fun token => (token.kind.spelling ++ "  " ++ token.text).toList) ++ [last]) := by
    induction tokens with
    | nil => simp
    | cons token tokens ih =>
        rw [List.map_cons, List.map_cons, List.cons_append,
          List.intercalate_cons_of_ne_nil (by simp), ← ih]
        simp [tokenLine]
  rw [Lined, plain, if_pos rfl, String.toList_append, joined]
  apply List.splitOn_intercalate
  · simp only [List.forall_mem_append, List.forall_mem_map, List.forall_mem_singleton]
    refine ⟨?_, result⟩
    intro token member
    simp [newline_notMem_spelling, texts token member]
  · simp

theorem agree_of_lined (lined : first.Lined) (otherLined : second.Lined)
    (same : first.plain true = second.plain true) :
    first.tokens = second.tokens ∧ first.resultLine = second.resultLine := by
  rw [Lined, same, otherLined] at lined
  obtain ⟨tokens, results⟩ := List.append_inj' lined rfl
  exact ⟨(List.map_injective_iff.mpr tokenLine_injective tokens).symm,
    String.toList_inj.mp (List.singleton_inj.mp results).symm⟩

end Plain

/-! ## Texts of one line -/

/-- What a scan hands out of a text of one line has no line break. -/
theorem newline_notMem_course {place : Place} {position : Nat} {text : List Char}
    {tokens : List PlacedToken} (course : Course place position text tokens)
    (single : '\n' ∉ text) : ∀ placed ∈ tokens, '\n' ∉ placed.token.text.toList := by
  induction course with
  | token blank takes spelled ends course ih =>
      simp only [List.mem_append, not_or] at single
      obtain ⟨-, lexeme, later⟩ := single
      exact List.forall_mem_cons.mpr ⟨by simpa using lexeme, ih later⟩
  | @fault place _ _ lexeme _ fault blank stops found =>
      simp only [List.mem_append, not_or] at single
      obtain ⟨-, inside, -⟩ := single
      have known := place.faults_subset (Goal.refuses_of_read found).2
      have opening : ∀ fault ∈ Fault.known, '\n' ∉ fault.opening.toList := by
        simp [Fault.known, Fault.opening]
      simp [Scanner.errorToken, Fault.message, opening fault known, inside, Token.ending]
  | exhausted begun blank => simp [Token.ending]

theorem newline_notMem_unexpected (expected : Expected) {found : String}
    (inside : '\n' ∉ found.toList) :
    '\n' ∉ (CommandError.unexpected expected found).message.toList := by
  have expectation : '\n' ∉ expected.text.toList := by
    cases expected with
    | token kind => exact newline_notMem_spelling kind
    | _ => decide
  change '\n' ∉ ("expected " ++ expected.text ++ ", but got: " ++ found).toList
  simp [expectation, inside]

theorem newline_notMem_decimal (number : Nat) : '\n' ∉ Nat.toDigits 10 number := by
  intro member
  exact absurd (Nat.isDigit_of_mem_toDigits (by decide) (by decide) member) (by decide)

/-- A reason to refuse tokens of one line has a message of one line. -/
theorem newline_notMem_message {closing tokens : List Token} {reason : CommandError}
    (fails : Reader.Fails closing tokens reason) (inside : closing ⊆ tokens)
    (texts : ∀ token ∈ tokens, '\n' ∉ token.text.toList) : '\n' ∉ reason.message.toList := by
  cases fails with
  | stops stops =>
      cases stops with
      | reported broken =>
          cases closing with
          | nil => exact absurd broken (by decide)
          | cons fault closing => exact texts fault (inside List.mem_cons_self)
      | ended ended begun => exact newline_notMem_unexpected _ (by decide)
  | early early =>
      cases early with
      | filtered begins => exact newline_notMem_unexpected _ (by decide)
      | @quoted bridge connect address begins =>
          have member : ⟨.string, address⟩ ∈ tokens := begins.subset (by simp)
          exact newline_notMem_unexpected _ (texts _ member)
      | @miscounted _ _ columns values begins columnsClosed valuesClosed differ =>
          change '\n' ∉ (columns.repr ++ " columns but " ++ values.repr ++ " values").toList
          simp [newline_notMem_decimal]
  | unnamed split isBridge ended => decide

theorem newline_notMem_tokensOf {text : String} (single : '\n' ∉ text.toList) :
    ∀ token ∈ tokensOf text, '\n' ∉ token.text.toList :=
  List.forall_mem_map.mpr
    (newline_notMem_course (Scanner.course_of_reading .start (.atStart text)) single)

/-- A text is refused for one of the reasons that its tokens give. -/
theorem fails_of_parse {text : String} {reason : CommandError}
    (failed : Command.parse text = .error reason) :
    ∃ closing ⊆ tokensOf text, Reader.Fails closing (tokensOf text) reason := by
  obtain ⟨taken, last, closing, whole, leads, spellings, closes⟩ := tokensOf_leads text
  have along := along_of_leads (closing.map PlacedToken.token) leads spellings
  rw [Command.parse, whole] at failed
  rw [whole]
  refine ⟨closing.map PlacedToken.token, List.subset_append_right _ _, ?_⟩
  cases closes with
  | fault stop =>
      exact (Command.ofTokens_ends (Or.inl rfl) along fun ended => by cases ended).2 reason failed
  | exhausted begun stop =>
      refine (Command.ofTokens_ends (Or.inr rfl) along fun _ => ?_).2 reason failed
      intro same
      obtain rfl : taken = [] := by simpa using same
      exact begun leads.symm

/-- The result of a text of one line is shown on one line. -/
theorem newline_notMem_resultLine {text : String} (single : '\n' ∉ text.toList) :
    '\n' ∉ (ofText text).resultLine.toList := by
  have texts := newline_notMem_tokensOf single
  cases result : Command.parse text with
  | ok command =>
      simp [resultLine, ofText, result, Command.Kind.newline_notMem_title,
        command.newline_notMem_line]
  | error reason =>
      obtain ⟨closing, inside, fails⟩ := fails_of_parse result
      simp [resultLine, ofText, result, newline_notMem_message fails inside texts]

theorem lined_ofText {text : String} (single : '\n' ∉ text.toList) : (ofText text).Lined :=
  lined_of_free (newline_notMem_tokensOf single) (newline_notMem_resultLine single)

/-- What is shown of two texts in the same style tells how far they agree: in the command or the
message, and in the tokens if they are shown. As plain text with the tokens, this is said of texts
of one line. -/
theorem agrees_of_render (style : Style) (first second : String)
    (single : style = ⟨true, false⟩ → '\n' ∉ first.toList ∧ '\n' ∉ second.toList)
    (same : (ofText first).render style = (ofText second).render style) :
    Agrees style (ofText first) (ofText second) := by
  rcases style with ⟨_ | _, _ | _⟩
  · exact ⟨sameResult_of_resultLine same, nofun, nofun⟩
  · obtain ⟨result, tokens⟩ := agree_of_json same
    exact ⟨result, tokens, nofun⟩
  · obtain ⟨firstSingle, secondSingle⟩ := single rfl
    have firstLined := lined_ofText firstSingle
    have secondLined := lined_ofText secondSingle
    obtain ⟨tokens, results⟩ := agree_of_lined firstLined secondLined same
    exact ⟨sameResult_of_resultLine results, fun _ => tokens, fun _ => ⟨firstLined, secondLined⟩⟩
  · obtain ⟨result, tokens⟩ := agree_of_json same
    exact ⟨result, tokens, nofun⟩

/-- A blank in front of a command is not shown. -/
theorem agrees_indented :
    (((⟨true, false⟩ : Style) = ⟨true, false⟩ →
        '\n' ∉ " stop".toList ∧ '\n' ∉ "stop".toList) ∧
      (ofText " stop").render ⟨true, false⟩ = (ofText "stop").render ⟨true, false⟩) ∧
    Agrees ⟨true, false⟩ (ofText " stop") (ofText "stop") := by
  have blank : Blank " ".toList := by decide
  have tokens : tokensOf " stop" = tokensOf "stop" := tokensOf_blank_append blank "stop"
  have same : ofText " stop" = ofText "stop" := by
    rw [ofText, ofText, Command.parse, Command.parse, tokens]
  have single : '\n' ∉ " stop".toList ∧ '\n' ∉ "stop".toList := by decide
  exact ⟨⟨fun _ => single, by rw [same]⟩, agrees_of_render _ _ _ (fun _ => single) (by rw [same])⟩

end Outcome

end TableFeed
