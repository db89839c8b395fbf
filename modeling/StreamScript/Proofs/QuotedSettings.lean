import StreamScript.Proofs.Respacing
import StreamScript.Proofs.Separators
import StreamScript.Settings

/-!
# Settings written in quotes

A settings file is read line by line, and what a line does depends on the line
alone: either it is faulty, whatever has been set before, or it is not, and
then it changes the settings (`Settings.readLine_eq`). The settings that a file
amounts to are therefore a fold over its lines, which passes over the faulty
ones, and the errors are those of the faulty lines with their numbers
(`Settings.readLines_eq`).

On its way from the file to a global a value is trimmed with its line, cut off
behind the directive, read as an argument and cut again at an equals sign.
Quotes bring it through all of that, whatever it is, if every quote and every
backslash in it has a backslash in front (`escapeQuotes`). A line feed is the
one thing that cannot be written.
-/

namespace StreamScript

namespace Text

variable {cs line : List Char} {c : Char}

/-! ## Lines

The lines of a text are cut out at line feeds, and a carriage return in front
of one is dropped. What a text is made of is said the other way round, by
writing lines one after the other (`MadeOf`): there is more than one text for
the same lines, and all of them are read alike. A line of settings is trimmed
before it is looked at, so whether the return is dropped first is not seen. -/

/-- **A text that is made of lines.** Each of them ends with a line feed, with
a carriage return in front of that or without, but the last one need not
end. -/
inductive MadeOf : List (List Char) → List Char → Prop where
  | nil : MadeOf [] []
  | last (line : List Char) : MadeOf [line] line
  | feed (line : List Char) {lines : List (List Char)} {rest : List Char} :
      MadeOf lines rest → MadeOf (line :: lines) (line ++ '\n' :: rest)
  | returnFeed (line : List Char) {lines : List (List Char)}
      {rest : List Char} :
      MadeOf lines rest → MadeOf (line :: lines) (line ++ '\r' :: '\n' :: rest)

/-- Up to a line feed a line is read as it is written. -/
theorem linesFrom_append (h : '\n' ∉ line) (begun rest : List Char) :
    linesFrom begun (line ++ '\n' :: rest)
      = (dropReturn (line.reverse ++ begun)).reverse :: linesFrom [] rest := by
  induction line generalizing begun with
  | nil => rfl
  | cons c line ih =>
    rw [List.mem_cons, not_or] at h
    rw [List.cons_append, linesFrom, ih h.2, List.reverse_cons,
      List.append_assoc]
    · rfl
    · exact fun heq => h.1 heq.symm

/-- A text that does not begin with a blank keeps all of it. -/
theorem dropWhile_isBlank_eq_self (h : ∀ c, cs.head? = some c →
    isBlank c = false) :
    cs.dropWhile isBlank = cs := by
  cases cs with
  | nil => rfl
  | cons c cs =>
    exact List.dropWhile_cons_of_neg (Bool.eq_false_iff.1 (h c rfl))

/-- Where no blank stands at either end there is nothing to trim. -/
theorem trim_eq_self (hhead : ∀ c, cs.head? = some c → isBlank c = false)
    (hlast : ∀ c, cs.getLast? = some c → isBlank c = false) : trim cs = cs := by
  rw [trim, trimStart, dropWhile_isBlank_eq_self hhead, trimEnd,
    dropWhile_isBlank_eq_self, List.reverse_reverse]
  rwa [List.head?_reverse]

/-- A blank at the end is trimmed away. -/
theorem trim_concat_blank (h : isBlank c = true) (cs : List Char) :
    trim (cs ++ [c]) = trim cs := by
  rw [trim, trim, trimStart, trimStart, List.dropWhile_append]
  split
  · next hempty =>
    rw [List.isEmpty_iff.1 hempty, List.dropWhile_cons_of_pos h]
    rfl
  · rw [trimEnd, trimEnd, List.reverse_append, List.reverse_singleton,
      List.singleton_append, List.dropWhile_cons_of_pos h]

/-- A carriage return at the end of a line is trimmed anyway. -/
theorem trim_dropReturn (line : List Char) :
    trim (dropReturn line.reverse).reverse = trim line := by
  generalize hreverse : line.reverse = reversed
  obtain rfl : line = reversed.reverse := by
    rw [← hreverse, List.reverse_reverse]
  unfold dropReturn
  split
  · rw [List.reverse_cons, trim_concat_blank (by decide)]
  · rfl

end Text

/-! ## Arguments in quotes

An argument is read character by character. Outside quotes a blank ends it;
inside nothing does but the closing quote. A backslash in quotes takes the next
character as it is, and outside of them stands for itself. So it is enough to
put a backslash in front of the two characters that mean something in quotes. -/

/-- A text with a backslash in front of every quote and every backslash. -/
def escapeQuotes (cs : List Char) : List Char :=
  cs.flatMap fun c => if c = '"' ∨ c = '\\' then ['\\', c] else [c]

/-- What may stand in an argument as it is: no quote, no backslash and, outside
quotes, no blank. -/
def StandsForItself (quoted : Bool) (c : Char) : Prop :=
  c ≠ '"' ∧ c ≠ '\\' ∧ (quoted = true ∨ Text.isAsciiBlank c = false)

theorem argumentsFrom_cons {quoted : Bool} {c : Char}
    (h : StandsForItself quoted c) (d : ArgumentDraft) (rest : List Char) :
    argumentsFrom quoted d (c :: rest)
    = argumentsFrom quoted (d.add c) rest := by
  obtain ⟨hquote, hslash, hblank⟩ := h
  rw [argumentsFrom]
  · rw [if_neg]
    obtain rfl | hblank := hblank
    · simp
    · simp [hblank]
  · exact hquote
  · exact fun h => absurd h hslash
  · exact fun _ _ h => absurd h hslash

instance (quoted : Bool) (c : Char) : Decidable (StandsForItself quoted c) :=
  inferInstanceAs (Decidable (_ ∧ _))

/-- A name that can be set has nothing in it but the characters of words. -/
theorem isWordChar_of_mem_identifier {name : String}
    (h : isIdentifier name = true) {c : Char} (hc : c ∈ name.toList) :
    isWordChar c = true := by
  simp only [isIdentifier, isWordToken, Bool.and_eq_true] at h
  exact List.all_eq_true.1 h.1.2 c hc

/-- None of these is a quote, a backslash or a blank. -/
theorem standsForItself_of_isWordChar {c : Char} (h : isWordChar c = true) :
    StandsForItself false c := by
  refine ⟨?_, ?_, .inr (Bool.eq_false_iff.2 fun hblank => ?_)⟩
  · rintro rfl
    exact absurd h (by decide)
  · rintro rfl
    exact absurd h (by decide)
  · rw [isWordChar_eq_false_of_isBlank (Text.isBlank_of_isAsciiBlank hblank)] at h
    cases h

/-- Characters that stand for themselves are read up to a quote. -/
theorem argumentsFrom_append_quote {quoted : Bool} {cs : List Char}
    (h : ∀ c ∈ cs, StandsForItself quoted c) (d : ArgumentDraft)
    (rest : List Char) :
    argumentsFrom quoted d (cs ++ '"' :: rest)
      = argumentsFrom (!quoted) ⟨cs.reverse ++ d.chars, true⟩ rest := by
  induction cs generalizing d with
  | nil => rw [List.nil_append, argumentsFrom]; rfl
  | cons c cs ih =>
    rw [List.forall_mem_cons] at h
    rw [List.cons_append, argumentsFrom_cons h.1, ih h.2, List.reverse_cons,
      List.append_assoc]
    rfl

/-- **Between quotes every text can be written.** Only quotes and backslashes
have to be escaped. What has been read so far is generalized, since the text is
read one character at a time and kept in reverse. -/
theorem argumentsFrom_escapeQuotes (cs chars rest : List Char) :
    argumentsFrom true ⟨chars, true⟩ (escapeQuotes cs ++ rest)
      = argumentsFrom true ⟨cs.reverse ++ chars, true⟩ rest := by
  induction cs generalizing chars with
  | nil => rfl
  | cons c cs ih =>
    rw [List.reverse_cons, List.append_assoc, List.singleton_append, ← ih,
      escapeQuotes, List.flatMap_cons, List.append_assoc]
    split
    · rfl
    · next h =>
      rw [not_or] at h
      exact argumentsFrom_cons ⟨h.1, h.2, .inl rfl⟩ _ _

/-! ## What a line does

A line is taken to pieces before it is followed: it may say nothing, or be a
directive with arguments. Whether it is faulty is decided by the directive and
its arguments, and the settings made so far are not asked. This is what makes a
fold of the reading: each line is a function of the settings, and the errors
are a list beside it. -/

namespace Settings

variable {line : List Char} {fault : SettingFault}

/-- What is wrong with a line, read on its own. -/
def fault? (line : List Char) : Option SettingFault :=
  match readLine {} (Text.trim line) with
  | .ok _ => none
  | .error fault => some fault

/-- The settings after a line. One that is faulty changes nothing. -/
def after (s : Settings) (line : List Char) : Settings :=
  match s.readLine (Text.trim line) with
  | .ok s => s
  | .error _ => s

/-- A directive is faulty whatever has been set before, or never. -/
theorem follow_outcome (s s' : Settings) (directive : String)
    (arguments : List String) :
    (∃ fault, s.follow directive arguments = .error fault ∧
        s'.follow directive arguments = .error fault) ∨
      ∃ t t', s.follow directive arguments = .ok t ∧
        s'.follow directive arguments = .ok t' := by
  unfold follow
  -- The settings before are changed only when nothing is left that could fail.
  split
  · cases bindingOf arguments with
    | error fault => exact .inl ⟨fault, rfl, rfl⟩
    | ok binding =>
      obtain ⟨name, value⟩ := binding
      dsimp only [bind, Except.bind]
      cases checkGlobalName name with
      | error fault => exact .inl ⟨fault, rfl, rfl⟩
      | ok _ => exact .inr ⟨_, _, rfl, rfl⟩
  · cases singleArgument "output" arguments with
    | error fault => exact .inl ⟨fault, rfl, rfl⟩
    | ok word =>
      dsimp only [bind, Except.bind]
      cases OutputFormat.named? word with
      | none => exact .inl ⟨_, rfl, rfl⟩
      | some format => exact .inr ⟨_, _, rfl, rfl⟩
  · cases singleArgument "folder" arguments with
    | error fault => exact .inl ⟨fault, rfl, rfl⟩
    | ok path => exact .inr ⟨_, _, rfl, rfl⟩
  · exact .inl ⟨_, rfl, rfl⟩

/-- **A line is faulty on its own**, or else it changes the settings. Whether
it is faulty does not depend on the settings before it, so the faulty lines of
a file are known without reading it in order. -/
theorem readLine_eq (s : Settings) (line : List Char) :
    s.readLine (Text.trim line) =
      match fault? line with
      | some fault => .error fault
      | none => .ok (s.after line) := by
  unfold fault? after readLine
  split
  · rfl
  · generalize (Text.trim line).span _ = cut
    obtain ⟨directive, rest⟩ := cut
    dsimp only
    obtain ⟨fault, h, h'⟩ | ⟨t, t', h, h'⟩ :=
      s.follow_outcome {} (String.ofList directive)
        (argumentsOf (Text.trim rest))
    · rw [h, h']
    · rw [h, h']

/-- A faulty line changes nothing. -/
theorem after_of_fault? (h : fault? line = some fault) (s : Settings) :
    s.after line = s := by
  have hread := s.readLine_eq line
  rw [h] at hread
  rw [after, hread]

/-- Nor does one that is blank or a comment. -/
theorem after_of_isIgnored (h : isIgnored (Text.trim line) = true)
    (s : Settings) :
    s.after line = s := by
  rw [after, readLine, if_pos h]

/-- The errors of some lines, which are numbered from the given number on. -/
def errorsOf (number : Nat) (lines : List (List Char)) : List SettingsError :=
  (lines.zipIdx number).filterMap fun (line, n) =>
    (fault? line).map fun fault => ⟨n, fault⟩

/-- **Reading lines is a fold over them**, and the errors are those of the
faulty ones. A faulty line is reported and changes nothing, and the lines
behind it are read as ever. -/
theorem readLines_eq (s : Settings) (number : Nat) (lines : List (List Char)) :
    s.readLines number lines
      = (lines.foldl after s, errorsOf number lines) := by
  induction lines generalizing s number with
  | nil => rfl
  | cons line lines ih =>
    rw [readLines, readLine_eq, errorsOf, List.zipIdx_cons, List.filterMap_cons,
      List.foldl_cons]
    dsimp only
    cases h : fault? line with
    | none => exact ih (s.after line) (number + 1)
    | some fault =>
      dsimp only [Option.map_some]
      rw [after_of_fault? h, ih]
      rfl

/-- The errors stand at some of the numbers that the lines have, in the order
of these. -/
theorem sublist_errorsOf (number : Nat) (lines : List (List Char)) :
    List.Sublist ((errorsOf number lines).map SettingsError.line)
      (List.range' number lines.length) := by
  induction lines generalizing number with
  | nil => exact .slnil
  | cons line lines ih =>
    rw [errorsOf, List.zipIdx_cons, List.filterMap_cons, List.length_cons,
      List.range'_succ]
    dsimp only
    cases fault? line with
    | none => exact (ih (number + 1)).cons number
    | some fault => exact (ih (number + 1)).cons_cons number

/-- **The errors are in the order of the lines**, and no line has two. They are
numbered from `number` on, and each line is looked at once. -/
theorem pairwise_errorsOf (number : Nat) (lines : List (List Char)) :
    ((errorsOf number lines).map SettingsError.line).Pairwise (· < ·) :=
  List.Pairwise.sublist (sublist_errorsOf number lines) List.pairwise_lt_range'

/-- Blanks at the ends of a line make no difference. -/
theorem readLines_cons_congr {line' : List Char}
    {lines lines' : List (List Char)} (htrim : Text.trim line = Text.trim line')
    (hlines : ∀ s number, readLines s number lines = readLines s number lines')
    (s : Settings) (number : Nat) :
    s.readLines number (line :: lines)
    = s.readLines number (line' :: lines') := by
  simp only [readLines, htrim, hlines]

/-- **A text is read as the lines it is made of.** If it ends with a line feed
no line follows, and an empty one in that place would say nothing. It is split
at line feeds, and a carriage return in front of one goes with the blanks when
the line is trimmed. -/
theorem readLines_linesFrom {lines : List (List Char)} {cs : List Char}
    (h : Text.MadeOf lines cs) (hfeed : ∀ line ∈ lines, '\n' ∉ line)
    (s : Settings) (number : Nat) :
    s.readLines number (Text.linesFrom [] cs) = s.readLines number lines := by
  induction h generalizing s number with
  | nil => rfl
  | last line =>
    rw [linesFrom_of_newline_not_mem (hfeed line List.mem_cons_self)]
    cases line with
    | nil => rfl
    | cons c line => rfl
  | feed line h ih =>
    rw [List.forall_mem_cons] at hfeed
    -- If the line itself ends with a carriage return, that goes too.
    rw [Text.linesFrom_append hfeed.1, List.append_nil]
    exact readLines_cons_congr (Text.trim_dropReturn line) (ih hfeed.2) s number
  | @returnFeed line lines rest h ih =>
    rw [List.forall_mem_cons] at hfeed
    have hline : '\n' ∉ line ++ ['\r'] := by
      rw [List.mem_append, not_or]
      exact ⟨hfeed.1, by decide⟩
    rw [show line ++ '\r' :: '\n' :: rest = (line ++ ['\r']) ++ '\n' :: rest by
      simp,
      Text.linesFrom_append hline, List.append_nil, List.reverse_concat,
        Text.dropReturn,
      List.reverse_reverse]
    exact readLines_cons_congr rfl (ih hfeed.2) s number

/-! ## Lines that set a global to a text in quotes

The line that sets a global is written out: the directive, a blank, the name,
an equals sign and the value in quotes. It begins with a letter and ends with a
quote, so trimming leaves it alone, and the only argument is the name with its
value. -/

/-- A name and a text for it in quotes. -/
def quotedBinding (name value : String) : List Char :=
  name.toList ++ '=' :: '"' :: (escapeQuotes value.toList ++ ['"'])

/-- The line that sets a global to a text in quotes. -/
def setLine (name value : String) : List Char :=
  "set ".toList ++ quotedBinding name value

variable {name : String}

/-- The argument that is read is the name, the equals sign and the value as it
was before it was put in quotes. -/
theorem argumentsOf_quotedBinding (h : isIdentifier name = true)
    (value : String) :
    argumentsOf (quotedBinding name value)
      = [String.ofList (name.toList ++ '=' :: value.toList)] := by
  have hname : ∀ c ∈ name.toList ++ ['='], StandsForItself false c := by
    intro c hc
    obtain hc | hc := List.mem_append.1 hc
    · exact standsForItself_of_isWordChar (isWordChar_of_mem_identifier h hc)
    · obtain rfl := List.mem_singleton.1 hc
      decide
  rw [argumentsOf, quotedBinding, List.append_cons name.toList '=',
    argumentsFrom_append_quote hname, Bool.not_false,
    argumentsFrom_escapeQuotes]
  simp [argumentsFrom, ArgumentDraft.toList]

/-- It ends with a quote, -/
theorem getLast?_quotedBinding (name value : String) :
    (quotedBinding name value).getLast? = some '"' := by
  rw [quotedBinding, List.append_cons, List.append_cons, ← List.append_assoc,
    List.getLast?_concat]

/-- so there is nothing to trim, whatever the value begins or ends with. -/
theorem trim_quotedBinding (h : isIdentifier name = true) (value : String) :
    Text.trim (quotedBinding name value) = quotedBinding name value := by
  refine Text.trim_eq_self (fun c hc => ?_) fun c hc => ?_
  · have hfirst := head?_of_isIdentifier h
    rw [quotedBinding] at hc
    cases hname : name.toList with
    | nil =>
      rw [hname] at hfirst
      cases hfirst
    | cons first cs =>
      rw [hname] at hfirst hc
      obtain rfl : first = c := Option.some.inj hc
      exact isBlank_eq_false_of_startsWord hfirst
  · rw [getLast?_quotedBinding, Option.some.injEq] at hc
    exact hc ▸ by decide

theorem trim_setLine (name value : String) :
    Text.trim (setLine name value) = setLine name value := by
  refine Text.trim_eq_self (fun c hc => ?_) fun c hc => ?_
  · obtain rfl : 's' = c := Option.some.inj hc
    decide
  · rw [setLine, List.getLast?_append, getLast?_quotedBinding, Option.some_or,
      Option.some.injEq] at hc
    exact hc ▸ by decide

/-- The argument is cut at the equals sign behind the name: there is none in
the name. -/
theorem bindingOf_assignment (h : isIdentifier name = true) (value : String) :
    bindingOf [String.ofList (name.toList ++ '=' :: value.toList)]
      = .ok (name, value) := by
  have hname : '=' ∉ name.toList := fun hmem =>
    absurd (isWordChar_of_mem_identifier h hmem) (by decide)
  have hcut := Text.breakOn_singleton hname value.toList
  simp [bindingOf, hcut]

theorem checkGlobalName_of_isIdentifier (h : isIdentifier name = true) :
    checkGlobalName name = .ok () := by
  rw [checkGlobalName, if_neg, if_pos h]
  intro hempty
  obtain rfl := String.isEmpty_iff.1 hempty
  exact absurd h (by decide)

/-- **A line that sets a global does so**, whatever the text in its quotes. The
words of the line are `set` and one binding, in which the quotes begin behind
the equals sign; blanks between them are part of the value. -/
theorem readLine_setLine (h : isIdentifier name = true) (value : String)
    (s : Settings) :
    s.readLine (Text.trim (setLine name value))
      = .ok { s with globals := s.globals.set name (settingValue value) } := by
  have hcut : (setLine name value).span (fun c => !Text.isAsciiBlank c)
      = ("set".toList, ' ' :: quotedBinding name value) := rfl
  have hrest : Text.trim (' ' :: quotedBinding name value)
      = quotedBinding name value :=
    trim_quotedBinding h value
  rw [trim_setLine, readLine, if_neg nofun, hcut]
  dsimp only
  rw [hrest, argumentsOf_quotedBinding h, String.ofList_toList, follow,
    bindingOf_assignment h]
  dsimp only [bind, Except.bind]
  rw [checkGlobalName_of_isIdentifier h]
  rfl

theorem after_setLine (h : isIdentifier name = true) (value : String)
    (s : Settings) :
    s.after (setLine name value)
      = { s with globals := s.globals.set name (settingValue value) } := by
  rw [after, readLine_setLine h]

theorem fault?_setLine (h : isIdentifier name = true) (value : String) :
    fault? (setLine name value) = none := by
  rw [fault?, readLine_setLine h]

/-- Such a line holds no line feed, if the value holds none. -/
theorem newline_not_mem_setLine (h : isIdentifier name = true) {value : String}
    (hvalue : '\n' ∉ value.toList) : '\n' ∉ setLine name value := by
  have hname : '\n' ∉ name.toList := fun hmem =>
    absurd (isWordChar_of_mem_identifier h hmem) (by decide)
  have hescaped : '\n' ∉ escapeQuotes value.toList := by
    intro hmem
    obtain ⟨c, hc, hmem⟩ := List.mem_flatMap.1 hmem
    obtain rfl : '\n' = c := by
      split at hmem
      · exact List.mem_singleton.1
          ((List.mem_cons.1 hmem).resolve_left (by decide))
      · exact List.mem_singleton.1 hmem
    exact hvalue hc
  simp [setLine, quotedBinding, hname, hescaped]

end Settings

/-! ## Files of such lines

A file is given as a list of lines of two kinds: those that set a name to a
text in quotes, and others that are blank, comments or faulty. What the file
does to a name is what its last line does that sets it. -/

/-- **A line of a settings file**: one that sets a global to a text in quotes,
or another one. A file is a list of such lines here, and not a text, so that a
statement can speak of what each line is. -/
inductive SettingsLine where
  | quoted (name value : String)
  | other (text : String)

namespace SettingsLine

/-- How the line is written. -/
def chars : SettingsLine → List Char
  | quoted name value => Settings.setLine name value
  | other text => text.toList

/-- Why the line is passed over, if it is. -/
def fault? : SettingsLine → Option SettingFault
  | quoted _ _ => none
  | other text => Settings.fault? text.toList

/-- **A line that can stand in the file**: what it sets is a name, the value
does not end the line, and a line that sets nothing is a comment, or blank, or
faulty. -/
def Proper : SettingsLine → Prop
  | quoted name value => isIdentifier name = true ∧ '\n' ∉ value.toList
  | other text => '\n' ∉ text.toList ∧
      (Settings.isIgnored (Text.trim text.toList) = true ∨
        (Settings.fault? text.toList).isSome = true)

instance : DecidablePred Proper
  | quoted _ _ => inferInstanceAs (Decidable (_ ∧ _))
  | other _ => inferInstanceAs (Decidable (_ ∧ _))

/-- What the line sets a name to. -/
def valueOf? (name : String) : SettingsLine → Option String
  | quoted n value => if name = n then some value else none
  | other _ => none

variable {line : SettingsLine}

theorem newline_not_mem_chars (h : line.Proper) : '\n' ∉ line.chars := by
  cases line with
  | quoted name value => exact Settings.newline_not_mem_setLine h.1 h.2
  | other text => exact h.1

/-- A line is faulty as it is written if it is faulty as it is meant. -/
theorem fault?_chars (h : line.Proper) :
    Settings.fault? line.chars = line.fault? := by
  cases line with
  | quoted name value => exact Settings.fault?_setLine h.1 value
  | other text => rfl

/-- **What a line does**: it sets its name, if it has one, and nothing else. A
line that has none is a comment, or blank, or faulty, and leaves the settings
as they are. -/
theorem after_chars (h : line.Proper) (s : Settings) :
    (∀ name, (s.after line.chars).globals.get? name
        = ((line.valueOf? name).map settingValue).or (s.globals.get? name)) ∧
      (s.after line.chars).output = s.output ∧
      (s.after line.chars).folder = s.folder := by
  cases line with
  | quoted n value =>
    rw [chars, Settings.after_setLine h.1]
    refine ⟨fun name => ?_, rfl, rfl⟩
    rw [Bindings.get?_set, valueOf?]
    split <;> rfl
  | other text =>
    have hafter : s.after text.toList = s := by
      obtain hignored | hfault := h.2
      · exact Settings.after_of_isIgnored hignored s
      · obtain ⟨fault, hfault⟩ := Option.isSome_iff_exists.1 hfault
        exact Settings.after_of_fault? hfault s
    rw [chars, hafter]
    exact ⟨fun _ => rfl, rfl, rfl⟩

end SettingsLine

/-- What the last line that sets a name sets it to. -/
def lastValue? (file : List SettingsLine) (name : String) : Option String :=
  file.reverse.findSome? (SettingsLine.valueOf? name)

variable {file : List SettingsLine} {text : String}

/-- **What a file does**: it sets every name to its last value, and nothing
else. The induction is from the end: what the last line sets is what counts,
and if it does not set the name the lines before it decide. -/
theorem foldl_after_chars (h : ∀ line ∈ file, line.Proper) :
    (∀ name,
      ((file.map SettingsLine.chars).foldl Settings.after {}).globals.get? name
        = (lastValue? file name).map settingValue) ∧
      ((file.map SettingsLine.chars).foldl Settings.after {}).output = .text ∧
      ((file.map SettingsLine.chars).foldl Settings.after {}).folder
      = none := by
  induction file using List.reverseRecOn with
  | nil => exact ⟨fun _ => rfl, rfl, rfl⟩
  | append_singleton file line ih =>
    obtain ⟨hget, houtput, hfolder⟩ :=
      ih fun l hl => h l (List.mem_append_left _ hl)
    rw [List.map_append, List.foldl_append]
    obtain ⟨hget', houtput', hfolder'⟩ := SettingsLine.after_chars
      (h line (List.mem_append_right _ (List.mem_singleton_self line)))
      ((file.map SettingsLine.chars).foldl Settings.after {})
    refine ⟨fun name => (hget' name).trans ?_, houtput'.trans houtput,
      hfolder'.trans hfolder⟩
    rw [hget, lastValue?, lastValue?, List.reverse_concat, List.findSome?_cons]
    cases line.valueOf? name <;> rfl

/-- **The errors of a file** are those of its faulty lines, each with the
number of its line. A line that sets a global to a text in quotes is never
among them. -/
theorem errorsOf_chars (h : ∀ line ∈ file, line.Proper) (number : Nat) :
    Settings.errorsOf number (file.map SettingsLine.chars) =
      (file.zipIdx number).filterMap fun (line, n) =>
      line.fault?.map fun fault => ⟨n, fault⟩ := by
  rw [Settings.errorsOf, List.zipIdx_map, List.filterMap_map]
  refine List.filterMap_congr fun (line, n) hmem => ?_
  have hline := h line (List.fst_mem_of_mem_zipIdx hmem)
  exact congrArg (Option.map _) (SettingsLine.fault?_chars hline)

/-- The lines of a file that are not passed over. -/
def keptLines (file : List SettingsLine) : List SettingsLine :=
  file.filter (·.fault?.isNone)

/-- **The faulty lines can be left out.** So a file may be read as if they were
not there, but for their errors and the numbers of the others. -/
theorem foldl_after_keptLines (h : ∀ line ∈ file, line.Proper) (s : Settings) :
    ((keptLines file).map SettingsLine.chars).foldl Settings.after s
      = (file.map SettingsLine.chars).foldl Settings.after s := by
  rw [keptLines, List.foldl_map, List.foldl_filter, List.foldl_map]
  refine List.foldl_ext _ _ s fun s line hmem => ?_
  split
  · rfl
  · next hfaulty =>
    rw [Option.isNone_iff_eq_none] at hfaulty
    obtain ⟨fault, hfault⟩ := Option.ne_none_iff_exists'.1 hfaulty
    rw [Settings.after_of_fault?
      ((SettingsLine.fault?_chars (h line hmem)).trans hfault)]

/-- A text that is made of the lines is read as a fold over them. -/
theorem ofText_of_madeOf (h : ∀ line ∈ file, line.Proper)
    (htext : Text.MadeOf (file.map SettingsLine.chars) text.toList) :
    Settings.ofText text =
      ((file.map SettingsLine.chars).foldl Settings.after {},
        Settings.errorsOf 1 (file.map SettingsLine.chars)) := by
  have hfeed : ∀ line ∈ file.map SettingsLine.chars, '\n' ∉ line := by
    rw [List.forall_mem_map]
    exact fun line hline => SettingsLine.newline_not_mem_chars (h line hline)
  rw [Settings.ofText, Text.lines, Settings.readLines_linesFrom htext hfeed,
    Settings.readLines_eq]

/-- **Texts in quotes survive a settings file.** A file has lines that set
names to texts in quotes, and comments, blank lines and faulty ones between
them. Every name is set to what the text of its last line spells, and nothing
else is set; every faulty line is reported, once and with its number, in the
order of the lines; and without the faulty lines the file sets the same. -/
theorem quoted_settings_survive (hproper : ∀ line ∈ file, line.Proper)
    (htext : Text.MadeOf (file.map SettingsLine.chars) text.toList) :
    ∃ settings errors, Settings.ofText text = (settings, errors) ∧
      (∀ name, settings.globals.get? name
        = (lastValue? file name).map settingValue) ∧
      settings.output = .text ∧ settings.folder = none ∧
      errors = ((file.zipIdx 1).filterMap fun (line, number) =>
        line.fault?.map fun fault => ⟨number, fault⟩) ∧
      (errors.map SettingsError.line).Pairwise (· < ·) ∧
      ∀ kept : String,
        Text.MadeOf ((keptLines file).map SettingsLine.chars) kept.toList →
        Settings.ofText kept = (settings, []) := by
  obtain ⟨hget, houtput, hfolder⟩ := foldl_after_chars hproper
  refine ⟨_, _, ofText_of_madeOf hproper htext, hget, houtput, hfolder,
    errorsOf_chars hproper 1, Settings.pairwise_errorsOf 1 _,
    fun kept hkept => ?_⟩
  have hproper' : ∀ line ∈ keptLines file, line.Proper := fun line hline =>
    hproper line (List.mem_of_mem_filter hline)
  rw [ofText_of_madeOf hproper' hkept, foldl_after_keptLines hproper,
    errorsOf_chars hproper', List.filterMap_eq_nil_iff.2]
  intro (line, number) hmem
  have hsound := (List.mem_filter.1 (List.fst_mem_of_mem_zipIdx hmem)).2
  rw [Option.isNone_iff_eq_none] at hsound
  show line.fault?.map _ = none
  rw [hsound]
  rfl

/-- A comment, a separator with quotes, a backslash and blanks at its ends, a
name that is reserved, a blank line, and the separator again. -/
def separatorFile : List SettingsLine :=
  [.other "; joining", .quoted "sep" " \"a\\b\" = ", .other "set map=1",
    .other "  ", .quoted "sep" " #\\"]

/-- The file as a text. Its first line ends with a carriage return, its last
without a line feed. -/
def separatorText : String :=
  "; joining\r\nset sep=\" \\\"a\\\\b\\\" = \"\nset map=1\n  \nset sep=\" #\\\\\""

/-- The separator is set twice, and the last line wins; the line in between is
reported. -/
theorem quoted_settings_survive_twice :
    ∃ settings errors, Settings.ofText separatorText = (settings, errors) ∧
      settings.globals.get? "sep" = some (.text " #\\") ∧
      errors = [⟨3, .invalidName "map"⟩] := by
  have hproper : ∀ line ∈ separatorFile, line.Proper := by decide
  have htext :
      Text.MadeOf (separatorFile.map SettingsLine.chars) separatorText.toList :=
    .returnFeed _ (.feed _ (.feed _ (.feed _ (.last _))))
  obtain ⟨settings, errors, hread, hget, -, -, herrors, -⟩ :=
    quoted_settings_survive hproper htext
  exact ⟨settings, errors, hread, hget "sep", herrors⟩

end StreamScript
