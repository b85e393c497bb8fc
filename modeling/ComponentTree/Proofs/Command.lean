import ComponentTree.Command
import ComponentTree.Proofs.Conversion.Numbers
import ComponentTree.Proofs.Files.Text
import ComponentTree.Proofs.Json.Written
import ComponentTree.Proofs.Markup.Template

/-!
# The command is all or nothing

A run of the command reads and converts first, which changes nothing, and writes last. So it either ends
with everything done, or leaves no output and all files as they were (`run_all_or_nothing`). There is one
exception, a run without an exit code: a text that has no encoding leaves its file empty (`Ends.emptied`).

What is done is told by the tree that the request asks for (`Converted`): the JSON text of that tree is
in the output or in a file, from where it reads back as the data of the tree.
-/

namespace ComponentTree.Command

open FileTree

/-- The tree that a request asks for: what the converter for its tags makes of the text that is read from
the input file, or of the template that is asked for. -/
def Converted (library : Markup.Library) (request : Request) (tree : FileTree) (descriptor : Value) :
    Prop :=
  ∃ input html tags template report, request.input = some input ∧
    request.components = tags.map OptionValue.text ∧
    request.template = template.map OptionValue.text ∧
    Files.readText disk input tree = (.done (some html) [], tree) ∧
    (converterFor tags request.propsify).convertHtml library html template = .ok report ∧
    report.outcome = .ok descriptor

/-- How a run can end for a request, in the file tree that it leaves behind. -/
inductive Ends (library : Markup.Library) (request : Request) (tree : FileTree) :
    Except Breakdown Outcome → FileTree → Prop
  /-- The run ended on the spot. -/
  | brokenOff {breakdown : Breakdown} {tree' : FileTree} (hfiles : SameFiles tree tree') :
      Ends library request tree (.error breakdown) tree'
  /-- The run ended on the spot after the output file was emptied, since the text for it has no
  encoding. -/
  | emptied {descriptor : Value} {path : String} {halves : Text.Utf8.Halves} {tree' : FileTree}
      (hconverted : Converted library request tree descriptor) (hfile : outputFile? request = some path)
      (hbroken : (generate defaultIndent descriptor).string? = none)
      (hwritten : TextWritten path "" tree tree') :
      Ends library request tree (.error (.output (.unencodable halves))) tree'
  /-- A failure was reported. -/
  | failed {errors : List String} {tree' : FileTree} (hfiles : SameFiles tree tree') :
      Ends library request tree (.ok ⟨1, "", errors⟩) tree'
  /-- The text of the tree went to the output. -/
  | printed {descriptor : Value} {text : String} {errors : List String}
      (hconverted : Converted library request tree descriptor) (hfile : outputFile? request = none)
      (htext : generate defaultIndent descriptor = text)
      (hread : descriptor.toData.nesting ≤ 200 → Json.read text = some descriptor.toData) :
      Ends library request tree (.ok ⟨0, text ++ "\n", errors⟩) tree
  /-- The text went to a file, where it can be read. -/
  | written {descriptor : Value} {path text : String} {errors : List String} {tree' : FileTree}
      (hconverted : Converted library request tree descriptor) (hfile : outputFile? request = some path)
      (htext : generate defaultIndent descriptor = text)
      (hwritten : TextWritten path (text ++ "\n") tree tree')
      (hread : ∃ found : String, Files.readText disk path tree' = (.done (some found) [], tree') ∧
        (descriptor.toData.nesting ≤ 200 → Json.read found = some descriptor.toData)) :
      Ends library request tree (.ok ⟨0, "", errors⟩) tree'

variable {runtime : Runtime} {request : Request} {tags : List String} {input html : String}
variable {descriptor : Value} {text : Points} {tree tree' : FileTree} {log : List LogRecord}
variable {report : Reported View}

/-! ## Converting -/

theorem strategyFor_eq (propsify : Bool) :
    strategyFor propsify =
      (if propsify then some PropNames.strict else none).map (standardStrategy {}) := by
  cases propsify <;> rfl

/-- Components under tags are names, and names have no numbers to lose. -/
theorem numbersKept_registered (tags : List String) (tag : String) :
    ((Assoc.get? tag (Converter.register ((componentsOfTags tags).map
      fun (tag, name) => (tag, .str name)))).getD .null).numbersKept = true := by
  cases hget : Assoc.get? tag (Converter.register ((componentsOfTags tags).map
      fun (tag, name) => (tag, .str name))) with
  | none => rfl
  | some component =>
    obtain ⟨pair, hpair, heq⟩ := List.mem_map.mp (Assoc.mem_ofPairs (Assoc.mem_of_get? hget))
    obtain ⟨entry, -, rfl⟩ := List.mem_map.mp hpair
    cases heq
    rfl

theorem Converted.numbersKept (h : Converted runtime.library request tree descriptor)
    (hlibrary : runtime.library.Lawful) : descriptor.numbersKept = true := by
  obtain ⟨input, html, tags, template, report, -, -, -, -, h, hok⟩ := h
  rw [converterFor, strategyFor_eq] at h
  exact Converter.numbersKept_convertHtml hlibrary (numbersKept_registered tags) h hok

/-- The text of the tree reads as its data, also with a gap after it. -/
theorem Converted.read_generate (h : Converted runtime.library request tree descriptor)
    (hlibrary : runtime.library.Lawful) {gap : Points} (hgap : Json.Gap gap)
    (hnesting : descriptor.toData.nesting ≤ 200) :
    Json.read (generate defaultIndent descriptor ++ gap) = some descriptor.toData :=
  Json.read_eq_some_of_jsonText (Nat.le_trans hnesting (by decide))
    (jsonText_generate (Json.Indent.blank_spaces 2) (h.numbersKept hlibrary) hgap)

/-- The text of the tree and the line feed after it are read back from the file that holds them. -/
theorem readText_of_written {before : FileTree} {path text : String}
    (htext : generate defaultIndent descriptor = text)
    (hwritten : TextWritten path (text ++ "\n") before tree') :
    Files.readText disk path tree' = (.done (some (text ++ "\n")) [], tree') := by
  refine hwritten.readText ?_
  have hreturn := return_not_mem_generate (Json.legible_spaces 2) descriptor
  rw [String.toList_append, List.mem_append, not_or]
  refine ⟨fun hmem => hreturn ?_, by decide⟩
  show CodePoint.char '\r' ∈ generate defaultIndent descriptor
  rw [htext]
  exact Points.mem_ofChars.mpr ⟨_, hmem, rfl⟩

/-- A template without an identifier is never converted. -/
theorem exists_template_of_convertHtml (h : convertHtml runtime tags request html = .ok report) :
    ∃ template : Option String, request.template = template.map .text ∧
      (converterFor tags request.propsify).convertHtml runtime.library html template = .ok report := by
  rw [convertHtml] at h
  split at h
  · cases hparse : runtime.library.parse html <;> rw [hparse] at h <;> cases h
  · next id htemplate => exact ⟨some id, htemplate, h⟩
  · next htemplate => exact ⟨none, htemplate, h⟩

theorem eq_generate_of_serialise (h : (serialise runtime input descriptor).1 = .ok text) :
    text = generate defaultIndent descriptor := by
  rw [serialise] at h
  split at h
  · cases h
  · exact (Except.ok.inj h).symm

theorem exists_of_convertText (h : convertText runtime tags request input html = .ok (.ok text, log)) :
    ∃ report descriptor, convertHtml runtime tags request html = .ok report ∧
      report.outcome = .ok descriptor ∧ text = generate defaultIndent descriptor := by
  rw [convertText] at h
  split at h
  · cases h
  · cases h
  · cases h
  · next report hreport =>
    split at h
    · cases h
    · next descriptor hdescriptor =>
      have hserialised := (Prod.mk.inj (Except.ok.inj h)).1
      exact ⟨report, descriptor, hreport, hdescriptor, eq_generate_of_serialise hserialised⟩

theorem convertText_of_ok (hreport : convertHtml runtime tags request html = .ok report)
    (hok : report.outcome = .ok descriptor) (hnesting : descriptor.toData.nesting ≤ runtime.maxNesting) :
    convertText runtime tags request input html =
      .ok (.ok (generate defaultIndent descriptor), report.log ++ [Log.serialising]) := by
  have hserialised : serialise runtime input descriptor =
      (.ok (generate defaultIndent descriptor), [Log.serialising]) := by
    rw [serialise]
    exact if_neg (Nat.not_lt.mpr hnesting)
  rw [convertText, hreport]
  dsimp only
  rw [hok]
  dsimp only
  rw [hserialised]

/-- All values of options that have to be there are texts. -/
theorem eq_map_of_mapM_text? {values : List OptionValue} (h : values.mapM OptionValue.text? = some tags) :
    values = tags.map .text := by
  induction values generalizing tags with
  | nil =>
    cases h
    rfl
  | cons value values ih =>
    rw [List.mapM_cons] at h
    obtain ⟨tag, htag, h⟩ := Option.bind_eq_some_iff.mp h
    obtain ⟨rest, hrest, h⟩ := Option.bind_eq_some_iff.mp h
    cases h
    cases value with
    | missing => cases htag
    | text s =>
      cases htag
      rw [ih hrest, List.map_cons]

/-! ## Runs -/

/-- What a text that is read comes to. -/
theorem convertFile_of_read (hread : Files.readText disk input tree = (.done (some html) [], tree)) :
    convertFile runtime disk tags request input tree =
      ((convertText runtime tags request input html).map fun (result, more) =>
        (result, ⟨.info, Log.converter, "Converting " ++ input⟩ :: more), tree) := by
  rw [convertFile, run_bind, hread]
  rfl

/-- Reading and converting leaves the tree as it is, and a text that it comes to is that of the tree
that the request asks for. -/
theorem convertFile_spec (hinput : request.input = some input)
    (htags : request.components.mapM OptionValue.text? = some tags) (tree : FileTree) :
    (convertFile runtime disk tags request input tree).2 = tree ∧
      ∀ text log, (convertFile runtime disk tags request input tree).1 = .ok (.ok text, log) →
        ∃ descriptor, Converted runtime.library request tree descriptor ∧ text = generate defaultIndent descriptor := by
  rcases readText_cases input tree with ⟨html, hread⟩ | ⟨result, hread, hnone⟩
  · rw [convertFile_of_read hread]
    refine ⟨rfl, fun text log h => ?_⟩
    cases hconverted : convertText runtime tags request input html with
    | error breakdown =>
      rw [hconverted] at h
      cases h
    | ok found =>
      rw [hconverted] at h
      obtain ⟨result, more⟩ := found
      obtain ⟨rfl, -⟩ := Prod.mk.inj (Except.ok.inj h)
      obtain ⟨report, descriptor, hreport, hdescriptor, htext⟩ := exists_of_convertText hconverted
      obtain ⟨template, htemplate, hreport⟩ := exists_template_of_convertHtml hreport
      exact ⟨descriptor, ⟨input, html, tags, template, report, hinput, eq_map_of_mapM_text? htags,
        htemplate, hread, hreport, hdescriptor⟩, htext⟩
  · rw [convertFile, run_bind, hread]
    dsimp only
    split
    · exact ⟨rfl, fun text log h => by cases h⟩
    · exact ⟨rfl, fun text log h => by cases h⟩
    · next html log => exact absurd rfl (hnone html log)

theorem gap_lineFeed : Json.Gap (.ofString "\n") := by simp [Json.Gap, Points.ofString]

/-- A text goes to the output as a whole or not at all. -/
theorem ends_printout (hlibrary : runtime.library.Lawful)
    (hconverted : Converted runtime.library request tree descriptor)
    (hfile : outputFile? request = none) (errors : List String) :
    Ends runtime.library request tree
      ((printout (generate defaultIndent descriptor)).map (⟨0, ·, errors⟩)) tree := by
  rw [printout, Points.string?_append_ofString]
  cases hstring : (generate defaultIndent descriptor).string? with
  | none => exact .brokenOff (SameFiles.refl _)
  | some text =>
    have htext := Points.string?_eq_some_iff.mp hstring
    have hnone : Json.Gap [] := by simp [Json.Gap]
    have hread := hconverted.read_generate hlibrary hnone
    rw [List.append_nil, htext] at hread
    exact .printed hconverted hfile htext hread

/-- A text is written to a file as a whole, or its file is left empty, or all files are left as they
were. -/
theorem ends_writeText (hlibrary : runtime.library.Lawful)
    (hconverted : Converted runtime.library request tree descriptor) {path : String}
    (hfile : outputFile? request = some path) {result : Files.Result Bool}
    (hdone : Files.writeText disk path (generate defaultIndent descriptor ++ Points.ofString "\n") tree =
      (result, tree')) :
    (∃ log, result = .done true log ∧
      ∀ errors, Ends runtime.library request tree (.ok ⟨0, "", errors⟩) tree') ∨
    (∃ halves, result = .raised (.unencodable halves) ∧
      Ends runtime.library request tree (.error (.output (.unencodable halves))) tree') ∨
    ((∀ log, result ≠ .done true log) ∧ SameFiles tree tree') := by
  cases hstring : (generate defaultIndent descriptor).string? with
  | some text =>
    have htext := Points.string?_eq_some_iff.mp hstring
    have hread := hconverted.read_generate hlibrary gap_lineFeed
    rw [htext, ← Points.ofString_append] at hdone hread
    have hcases := writeText_cases path (text ++ "\n") tree
    rw [hdone] at hcases
    rcases hcases with ⟨log, hresult, hwritten⟩ | hnot
    · exact .inl ⟨log, hresult, fun errors => .written hconverted hfile htext hwritten
        ⟨_, readText_of_written htext hwritten, hread⟩⟩
    · exact .inr (.inr hnot)
  | none =>
    have hbroken : (generate defaultIndent descriptor ++ Points.ofString "\n").string? = none := by
      rw [Points.string?_append_ofString, hstring, Option.map_none]
    have hcases := writeText_broken_cases path hbroken tree
    rw [hdone] at hcases
    rcases hcases with ⟨hresult, hwritten⟩ | hnot
    · exact .inr (.inl ⟨_, hresult, .emptied hconverted hfile hstring hwritten⟩)
    · exact .inr (.inr hnot)

/-- What is done for a request ends in one of the ways in which a run can end. -/
theorem ends_perform (hlibrary : runtime.library.Lawful) (hinput : request.input = some input)
    (htags : request.components.mapM OptionValue.text? = some tags) (level : String) (tree : FileTree) :
    Ends runtime.library request tree
      ((perform runtime disk tags request input tree).1.map fun (exit, output, log) =>
        ⟨exit, output, reportLines level log⟩) (perform runtime disk tags request input tree).2 := by
  obtain ⟨htree, htext⟩ := convertFile_spec hinput htags tree
  rw [perform, run_bind]
  generalize convertFile runtime disk tags request input tree = converted at htree htext
  obtain ⟨result, left⟩ := converted
  obtain rfl : left = tree := htree
  cases result with
  | error breakdown => exact .brokenOff (SameFiles.refl _)
  | ok found =>
    obtain ⟨result, log⟩ := found
    cases result with
    | error failure => exact .failed (SameFiles.refl _)
    | ok text =>
      obtain ⟨descriptor, hconverted, rfl⟩ := htext text log rfl
      -- the tree is as it was, so how the run ends is up to the writing alone
      cases hfile : outputFile? request with
      | none =>
        have hends := ends_printout hlibrary hconverted hfile (reportLines level log)
        dsimp only
        cases hprintout : printout (generate defaultIndent descriptor) <;> rw [hprintout] at hends <;>
          exact hends
      | some path =>
        dsimp only
        rw [run_bind]
        cases hdone : Files.writeText disk path
            (generate defaultIndent descriptor ++ Points.ofString "\n") left with
        | mk result tree' =>
          rcases ends_writeText hlibrary hconverted hfile hdone with
            ⟨more, rfl, hends⟩ | ⟨halves, rfl, hends⟩ | ⟨hnot, hfiles⟩
          · exact hends _
          · exact hends
          · dsimp only
            split
            · exact .brokenOff hfiles
            · next more => exact absurd rfl (hnot more)
            · exact .failed hfiles

/-- Arguments that do not ask for the usage name an input. -/
theorem exists_input_of_ofArguments {arguments : List String}
    (haccepted : Request.ofArguments arguments = .ok request) (husage : request.help = false) :
    ∃ input, request.input = some input := by
  rw [Request.ofArguments] at haccepted
  obtain ⟨forms, -, h⟩ := Markup.exists_ok_of_bind haccepted
  obtain ⟨taken, -, h⟩ := Markup.exists_ok_of_bind h
  -- the checks come in this order: usage, input, arguments that are left over
  cases hhelp : taken.help with
  | true =>
    simp only [hhelp, if_true] at h
    cases h
    rw [husage] at hhelp
    cases hhelp
  | false =>
    cases hinput : taken.input with
    | none =>
      simp only [hhelp, hinput] at h
      cases h
    | some input =>
      cases hleftover : taken.leftover.isEmpty with
      | false =>
        simp only [hhelp, hinput, hleftover] at h
        cases h
      | true =>
        simp only [hhelp, hinput, hleftover] at h
        cases h
        exact ⟨input, hinput⟩

/-- **The command is all or nothing.** Take a library that can be relied on, room for data of whatever
nesting, arguments that make a request, other than for the usage, and any file tree.

A run that reports a failure leaves every file as it was, no file that was not there before, and nothing
in the output. So does one that ends on the spot, except that the output file is left empty if the JSON
text for it has no encoding. Any other run ends with exit code 0, and then there is a descriptor tree that
the converter for the given tags, with props strategy and template as asked for, makes of the text that was
in the input file. Without an output file, or with an empty path for it, the output is the JSON text of that
tree and a line feed, and the files are as they were. With an output file the output is empty, that file
holds the JSON text and a line feed, and every other file is as it was.

Up to 200 levels, the JSON text reads as the data of the tree; and so does what is read from the output
file. -/
theorem run_all_or_nothing (hlibrary : runtime.library.Lawful) {arguments : List String}
    (haccepted : Request.ofArguments arguments = .ok request) (husage : request.help = false)
    (tree : FileTree) :
    Ends runtime.library request tree (run runtime disk arguments tree).1
      (run runtime disk arguments tree).2 := by
  obtain ⟨input, hinput⟩ := exists_input_of_ofArguments haccepted husage
  rw [run, haccepted]
  dsimp only
  rw [hinput]
  dsimp only
  rw [husage]
  -- a level or a tag without a value ends the run before anything is read
  cases hlevel : request.logLevel.text? with
  | none => exact .brokenOff (SameFiles.refl tree)
  | some level =>
    cases htags : request.components.mapM OptionValue.text? with
    | none => exact .brokenOff (SameFiles.refl tree)
    | some tags => exact ends_perform hlibrary hinput htags level tree

/-- A file with a component and a line end of two characters. -/
def boldFiles : FileTree :=
  ⟨[(["in"], .file (Text.Utf8.encode "<b a=\"true\">\r\né</b>".toList))]⟩

theorem resolve_boldFiles {name : String} (h : name ∈ ["in", "out"]) :
    boldFiles.resolve name = .ok [name] := by
  have hway : ∀ name ∈ ["in", "out"], start name = [] ∧ steps name = [name] ∧
      boldFiles.walk [] [name] = .ok [name] := by decide +kernel
  have hrefusal : refusal? name = none := by
    rcases List.mem_pair.mp h with rfl | rfl <;> simp [refusal?] <;> decide
  obtain ⟨hstart, hsteps, hwalk⟩ := hway name h
  rw [resolve, hrefusal, hstart, hsteps]
  exact hwalk

def boldArguments : List String := ["in", "-c", "b", "--propsify", "-o", "out"]

def boldRequest : Request :=
  { input := some "in", output := some (.text "out"), components := [.text "b"], propsify := true }

/-- The library that the program comes with, and room for data of some nesting. -/
def boldRuntime : Runtime := ⟨Markup.library, 10⟩

/-- The markup that is read from the file, and what it is converted to. -/
def boldMarkup : Markup := .document [.element "b" [("a", .str "true")] [.text "\né"]]

def boldTree : Value :=
  .element .fragment [] [.element (.str "B") [(.str "a", .bool true)] [.str "\né"]]

theorem run_all_or_nothing_boldFiles :
    Request.ofArguments boldArguments = .ok boldRequest ∧ boldRequest.help = false ∧
      boldRuntime.library.Lawful ∧
      (∃ errors, (run boldRuntime disk boldArguments boldFiles).1 = .ok ⟨0, "", errors⟩) ∧
      Ends boldRuntime.library boldRequest boldFiles (run boldRuntime disk boldArguments boldFiles).1
        (run boldRuntime disk boldArguments boldFiles).2 := by
  have haccepted : Request.ofArguments boldArguments = .ok boldRequest := by with_unfolding_all rfl
  -- the input file, up to the tree that it is converted to
  have hin : boldFiles.resolve "in" = .ok ["in"] := resolve_boldFiles (.head _)
  have hread : Files.readText disk "in" boldFiles =
      (.done (some "<b a=\"true\">\né</b>") [], boldFiles) := by
    rw [readText_eq, read_of_resolve hin rfl]
    dsimp only
    rw [Text.Utf8.decode_encode]
    rfl
  have hparse : boldRuntime.library.parse "<b a=\"true\">\né</b>" = .ok boldMarkup := by
    with_unfolding_all rfl
  have hconverted : ((converterFor ["b"] true).convert View.source (.wrap (.top boldMarkup))).outcome =
      .ok boldTree := by with_unfolding_all rfl
  have hhtml : convertHtml boldRuntime ["b"] boldRequest "<b a=\"true\">\né</b>" =
      .ok ((converterFor ["b"] true).convert View.source (.wrap (.top boldMarkup))) :=
    Converter.convertHtml_of_parse hparse none
  have hfile : convertFile boldRuntime disk ["b"] boldRequest "in" boldFiles = _ :=
    convertFile_of_read hread
  rw [convertText_of_ok hhtml hconverted (by decide)] at hfile
  -- the output file, which can be written
  have hout : boldFiles.resolve "out" = .ok ["out"] := resolve_boldFiles (.tail _ (.head _))
  have hroom : Files.makeRoom disk "out" boldFiles = (.ok (), boldFiles) := by with_unfolding_all rfl
  have hwrite : ∀ bytes, disk.write "out" bytes boldFiles =
      (.ok (), boldFiles.put ["out"] (.file bytes)) := by
    intro bytes
    have hwrite : boldFiles.write "out" bytes = .ok (boldFiles.put ["out"] (.file bytes)) := by
      rw [FileTree.write, hout]
      rfl
    show change "out" (·.write "out" bytes) boldFiles = _
    rw [change, hwrite]
  refine ⟨haccepted, rfl, Markup.lawful_library, ?_,
    run_all_or_nothing Markup.lawful_library haccepted rfl boldFiles⟩
  have hperform : run boldRuntime disk boldArguments boldFiles =
      ((perform boldRuntime disk ["b"] boldRequest "in" boldFiles).1.map
          fun (exit, output, log) => ⟨exit, output, reportLines "WARNING" log⟩,
        (perform boldRuntime disk ["b"] boldRequest "in" boldFiles).2) := by
    rw [run, haccepted]
    rfl
  have houtput : outputFile? boldRequest = some "out" := rfl
  rw [hperform, perform, run_bind, hfile]
  dsimp only [Except.map]
  rw [houtput]
  dsimp only
  rw [run_bind, Files.writeText, run_bind, hroom]
  dsimp only
  rw [run_bind, hwrite]
  exact ⟨_, rfl⟩

end ComponentTree.Command
