import PullPlan.Directive
import PullPlan.Proofs.EnvValue.Cast
import PullPlan.Proofs.Text.Trim

/-!
# The grammar of directives

Two rules look at a line for a base URL and for a variable. `DeclaresUrl` and `DeclaresVariable` are
the lines that they are meant to accept, written as texts with blanks between their parts, and
`baseUrl?_eq_some_iff` and `assignment?_eq_some_iff` say that they accept just those. A line is
trimmed at its front for a base URL only, so no line is of both kinds
(`baseUrl?_eq_none_of_assignment?`).

Blanks behind a line belong to neither (`baseUrl?_append_blanks`, `assignment?_append_blanks`). A
text of nothing but blanks is therefore never cast, which would make it the number zero.
-/

namespace PullPlan
namespace Directive

/-! ### Base URLs -/

/-- The line has the keyword or the label of a base URL with nothing but blanks before it, the URL
behind it, and nothing but blanks around the URL. Behind the keyword there is at least one blank. -/
inductive DeclaresUrl : Text → Text → Prop
  | keyword {front gap url behind : Text} (hfront : front.AllBlank) (hgap : gap.AllBlank)
      (hne : gap ≠ []) (hurl : url.IsSolid) (hbehind : behind.AllBlank) :
      DeclaresUrl (front ++ baseUrlKeyword ++ gap ++ url ++ behind) url
  | label {front gap url behind : Text} (hfront : front.AllBlank) (hgap : gap.AllBlank)
      (hurl : url.IsSolid) (hbehind : behind.AllBlank) :
      DeclaresUrl (front ++ testUrlLabel ++ gap ++ url ++ behind) url

theorem isSolid_baseUrlKeyword : baseUrlKeyword.IsSolid where
  ne_nil := by decide
  head c hc := by
    obtain rfl : 'b' = c := Option.some.inj hc
    decide
  last c hc := by
    obtain rfl : 'l' = c := Option.some.inj hc
    decide

theorem isSolid_testUrlLabel : testUrlLabel.IsSolid where
  ne_nil := by decide
  head c hc := by
    obtain rfl : 'T' = c := Option.some.inj hc
    decide
  last c hc := by
    obtain rfl : ':' = c := Option.some.inj hc
    decide

/-- The keyword counts with a blank behind it and the label with anything. No text opens with
both, so it does not matter which of them is looked for first. -/
theorem afterBaseUrlLead?_eq_some_iff {line rest : Text} :
    afterBaseUrlLead? line = some rest ↔
      (Text.trimStart line = baseUrlKeyword ++ rest ∧ rest.head?.any isBlank = true) ∨
      Text.trimStart line = testUrlLabel ++ rest := by
  have hlabel : ∀ t, Text.after? baseUrlKeyword (testUrlLabel ++ t) = none := fun _ => rfl
  unfold afterBaseUrlLead?
  dsimp only
  constructor
  · intro h
    split at h
    · rename_i found hkeyword
      split at h
      · rename_i hblank
        obtain rfl := Option.some.inj h
        exact .inl ⟨Text.after?_eq_some_iff.1 hkeyword, hblank⟩
      · contradiction
    · exact .inr (Text.after?_eq_some_iff.1 h)
  · rintro (⟨hstart, hblank⟩ | hstart)
    · rw [Text.after?_eq_some_iff.2 hstart]
      exact if_pos hblank
    · rw [hstart, hlabel]
      exact Text.after?_eq_some_iff.2 rfl

theorem baseUrl?_eq_some_iff_trim {line url : Text} :
    baseUrl? line = some url ↔
      ∃ rest, afterBaseUrlLead? line = some rest ∧ Text.trim rest = url ∧ url ≠ [] := by
  unfold baseUrl?
  simp only [Option.bind_eq_bind, Option.bind_eq_some_iff, List.isEmpty_iff,
    Option.ite_none_left_eq_some, Option.some.injEq]
  apply exists_congr
  intro rest
  apply and_congr_right
  intro _
  constructor
  · rintro ⟨hne, rfl⟩
    exact ⟨rfl, hne⟩
  · rintro ⟨rfl, hne⟩
    exact ⟨hne, rfl⟩

/-- The parts of a line that opens with a lead behind its blanks. -/
theorem exists_parts_of_trimStart {line lead rest : Text}
    (hstart : Text.trimStart line = lead ++ rest) :
    ∃ front gap behind, line = front ++ lead ++ gap ++ Text.trim rest ++ behind ∧
      rest = gap ++ (Text.trim rest ++ behind) ∧
      front.AllBlank ∧ gap.AllBlank ∧ behind.AllBlank := by
  obtain ⟨front, hline, hfront⟩ := Text.trimStart_eq line
  obtain ⟨gap, behind, hparts, hgap, hbehind⟩ := Text.exists_eq_append_trim rest
  rw [List.append_assoc] at hparts
  refine ⟨front, gap, behind, ?_, hparts, hfront, hgap, hbehind⟩
  simp only [List.append_assoc]
  rw [← hparts, ← hstart, ← hline]

/-- A line declares a base URL exactly when it is one of those that should. -/
theorem baseUrl?_eq_some_iff {line url : Text} :
    baseUrl? line = some url ↔ DeclaresUrl line url := by
  rw [baseUrl?_eq_some_iff_trim]
  constructor
  · rintro ⟨rest, hrest, rfl, hne⟩
    have hurl : (Text.trim rest).IsSolid := Text.isSolid_trim hne
    rcases afterBaseUrlLead?_eq_some_iff.1 hrest with ⟨hstart, hblank⟩ | hstart
    · obtain ⟨front, gap, behind, hline, hparts, hfront, hgap, hbehind⟩ :=
        exists_parts_of_trimStart hstart
      -- Without a gap, the URL would start with the blank behind the keyword.
      have hne : gap ≠ [] := by
        rintro rfl
        rw [List.nil_append] at hparts
        have hsolid : ∀ c, rest.head? = some c → isBlank c = false := by
          rw [hparts]
          exact fun _ => hurl.head_append behind
        cases hhead : rest.head? with
        | none => simp [hhead] at hblank
        | some c => simp [hhead, hsolid c hhead] at hblank
      rw [hline]
      exact .keyword hfront hgap hne hurl hbehind
    · obtain ⟨front, gap, behind, hline, -, hfront, hgap, hbehind⟩ :=
        exists_parts_of_trimStart hstart
      rw [hline]
      exact .label hfront hgap hurl hbehind
  · intro h
    cases h with
    | @keyword front gap _ behind hfront hgap hne hurl hbehind =>
      refine ⟨gap ++ url ++ behind, afterBaseUrlLead?_eq_some_iff.2 (.inl ⟨?_, ?_⟩),
        hurl.trim_append_append hgap hbehind, hurl.ne_nil⟩
      · simp only [List.append_assoc]
        exact isSolid_baseUrlKeyword.trimStart_append hfront _
      · obtain ⟨c, gap, rfl⟩ := List.exists_cons_of_ne_nil hne
        exact hgap c List.mem_cons_self
    | @label front gap _ behind hfront hgap hurl hbehind =>
      refine ⟨gap ++ url ++ behind, afterBaseUrlLead?_eq_some_iff.2 (.inr ?_),
        hurl.trim_append_append hgap hbehind, hurl.ne_nil⟩
      simp only [List.append_assoc]
      exact isSolid_testUrlLabel.trimStart_append hfront _

/-! ### Variables -/

/-- The line starts with the lead of a variable, and the key stands behind it with nothing but
blanks around. Either nothing follows, and there is no value; or an equals sign follows, the first
one of the line, and the text behind it without the blanks at its end is cast to the value. -/
inductive DeclaresVariable : Text → Text → EnvValue → Prop
  | bare {front key behind : Text} (hfront : front.AllBlank) (hkey : key.IsSolid)
      (hequals : '=' ∉ key) (hbehind : behind.AllBlank) :
      DeclaresVariable (variableLead ++ front ++ key ++ behind) key .absent
  | given {front key back raw behind : Text} (hfront : front.AllBlank) (hkey : key.IsSolid)
      (hequals : '=' ∉ key) (hback : back.AllBlank)
      (hraw : ∀ c, raw.getLast? = some c → isBlank c = false) (hbehind : behind.AllBlank) :
      DeclaresVariable (variableLead ++ front ++ key ++ back ++ '=' :: raw ++ behind) key
        (.ofText raw)

theorem isBlank_equals : isBlank '=' = false := by decide

/-- Without an equals sign, a line declares the name behind the lead, unless that is blank. -/
theorem assignment?_bare {name : Text} (hequals : '=' ∉ name) :
    assignment? (variableLead ++ name)
      = if Text.trim name = [] then none else some (Text.trim name, .absent) := by
  have hlead : Text.after? variableLead (variableLead ++ name) = some name :=
    Text.after?_eq_some_iff.2 rfl
  have hcut : Text.cutAt? '=' (Text.trim name) = none :=
    Text.cutAt?_eq_none_iff.2 fun h => hequals (Text.mem_of_mem_trim h)
  unfold assignment?
  simp only [hlead, Option.bind_eq_bind, Option.bind_some, hcut, List.isEmpty_iff]

/-- With an equals sign, a line declares the name in front of it with the value behind it, unless
the name is blank. Blanks at the end of the value go with those at the end of the line. -/
theorem assignment?_equals {name : Text} (hequals : '=' ∉ name) (raw : Text) :
    assignment? (variableLead ++ (name ++ '=' :: raw))
      = if Text.trim name = [] then none
        else some (Text.trim name, .ofText (Text.trimEnd raw)) := by
  have hlead : Text.after? variableLead (variableLead ++ (name ++ '=' :: raw))
      = some (name ++ '=' :: raw) := Text.after?_eq_some_iff.2 rfl
  have hstart : '=' ∉ Text.trimStart name := fun h =>
    hequals ((List.dropWhile_sublist isBlank).subset h)
  have hcut : Text.cutAt? '=' (Text.trimStart name ++ '=' :: Text.trimEnd raw)
      = some (Text.trimStart name, Text.trimEnd raw) := Text.cutAt?_eq_some_iff.2 ⟨rfl, hstart⟩
  unfold assignment?
  simp only [hlead, Option.bind_eq_bind, Option.bind_some, Text.trim_append_cons isBlank_equals,
    hcut, Text.trim_trimStart, List.isEmpty_iff]

/-- A line declares a variable exactly when it is one of those that should. -/
theorem assignment?_eq_some_iff {line key : Text} {value : EnvValue} :
    assignment? line = some (key, value) ↔ DeclaresVariable line key value := by
  constructor
  · intro h
    obtain ⟨rest, hlead, -⟩ := Option.bind_eq_some_iff.1 h
    obtain rfl := Text.after?_eq_some_iff.1 hlead
    by_cases hequals : '=' ∈ rest
    · obtain ⟨name, raw, rfl, hname⟩ := List.eq_append_cons_of_mem hequals
      rw [assignment?_equals hname, Option.ite_none_left_eq_some] at h
      obtain ⟨hne, heq⟩ := h
      obtain ⟨rfl, rfl⟩ := Prod.mk.inj (Option.some.inj heq)
      obtain ⟨front, back, hparts, hfront, hback⟩ := Text.exists_eq_append_trim name
      obtain ⟨behind, hraw, hbehind⟩ := Text.trimEnd_eq raw
      have hline : variableLead ++ (name ++ '=' :: raw)
          = variableLead ++ front ++ Text.trim name ++ back ++ '=' :: Text.trimEnd raw ++ behind :=
        calc variableLead ++ (name ++ '=' :: raw)
            = variableLead
                ++ (front ++ Text.trim name ++ back ++ '=' :: (Text.trimEnd raw ++ behind)) := by
              rw [← hparts, ← hraw]
          _ = _ := by simp only [List.append_assoc, List.cons_append]
      rw [hline]
      exact .given hfront (Text.isSolid_trim hne) (fun h => hname (Text.mem_of_mem_trim h)) hback
        (fun _ => Text.trimEnd_getLast?) hbehind
    · rw [assignment?_bare hequals, Option.ite_none_left_eq_some] at h
      obtain ⟨hne, heq⟩ := h
      obtain ⟨rfl, rfl⟩ := Prod.mk.inj (Option.some.inj heq)
      obtain ⟨front, behind, hparts, hfront, hbehind⟩ := Text.exists_eq_append_trim rest
      have hline : variableLead ++ rest = variableLead ++ front ++ Text.trim rest ++ behind := by
        rw [List.append_assoc, List.append_assoc, ← List.append_assoc front, ← hparts]
      rw [hline]
      exact .bare hfront (Text.isSolid_trim hne) (fun h => hequals (Text.mem_of_mem_trim h)) hbehind
  · intro h
    cases h with
    | @bare front _ behind hfront hkey hequals hbehind =>
      have hname : '=' ∉ front ++ key ++ behind := by
        simp [hfront.not_mem isBlank_equals, hequals, hbehind.not_mem isBlank_equals]
      have htrim : Text.trim (front ++ key ++ behind) = key :=
        hkey.trim_append_append hfront hbehind
      have hbare := assignment?_bare hname
      rw [htrim, if_neg hkey.ne_nil] at hbare
      simpa only [List.append_assoc] using hbare
    | @given front _ back raw behind hfront hkey hequals hback hraw hbehind =>
      have hname : '=' ∉ front ++ key ++ back := by
        simp [hfront.not_mem isBlank_equals, hequals, hback.not_mem isBlank_equals]
      have htrim : Text.trim (front ++ key ++ back) = key := hkey.trim_append_append hfront hback
      have hend : Text.trimEnd (raw ++ behind) = raw := by
        rw [Text.trimEnd_append hbehind, Text.trimEnd_eq_self hraw]
      have hgiven := assignment?_equals hname (raw ++ behind)
      rw [htrim, if_neg hkey.ne_nil, hend] at hgiven
      simpa only [List.append_assoc, List.cons_append] using hgiven

/-! ### No line is of both kinds -/

/-- A line that declares a variable declares no base URL: it starts with `C`, which is no blank and
starts neither the keyword nor the label. -/
theorem baseUrl?_eq_none_of_assignment? {line : Text} {entry : Text × EnvValue}
    (h : assignment? line = some entry) : baseUrl? line = none := by
  cases hlead : Text.after? variableLead line with
  | none => simp [assignment?, hlead] at h
  | some rest =>
    have hline : line = 'C' :: ("YPRESS_".toList ++ rest) := Text.after?_eq_some_iff.1 hlead
    have hstart : Text.trimStart line = line := by
      rw [Text.trimStart, hline, List.dropWhile_cons_of_neg (by decide)]
    have hnone : afterBaseUrlLead? line = none := by
      rw [afterBaseUrlLead?, hstart, hline]
      rfl
    rw [baseUrl?, hnone]
    rfl

/-! ### Blanks behind a line -/

/-- Blanks behind a line do not change whether it is one that declares a base URL. -/
theorem declaresUrl_append_iff {line tail url : Text} (htail : tail.AllBlank) :
    DeclaresUrl (line ++ tail) url ↔ DeclaresUrl line url := by
  constructor
  · intro h
    generalize hline : line ++ tail = all at h
    cases h with
    | keyword hfront hgap hne hurl hbehind =>
      obtain ⟨rest, rfl, rfl⟩ :=
        Text.exists_of_append_eq_append hline htail fun _ => hurl.last_append _
      exact .keyword hfront hgap hne hurl fun c hc => hbehind c (List.mem_append_left _ hc)
    | label hfront hgap hurl hbehind =>
      obtain ⟨rest, rfl, rfl⟩ :=
        Text.exists_of_append_eq_append hline htail fun _ => hurl.last_append _
      exact .label hfront hgap hurl fun c hc => hbehind c (List.mem_append_left _ hc)
  · intro h
    cases h with
    | keyword hfront hgap hne hurl hbehind =>
      rw [List.append_assoc _ _ tail]
      exact .keyword hfront hgap hne hurl (hbehind.append htail)
    | label hfront hgap hurl hbehind =>
      rw [List.append_assoc _ _ tail]
      exact .label hfront hgap hurl (hbehind.append htail)

/-- Blanks behind a line do not change whether it is one that declares a variable, nor which. -/
theorem declaresVariable_append_iff {line tail key : Text} {value : EnvValue}
    (htail : tail.AllBlank) :
    DeclaresVariable (line ++ tail) key value ↔ DeclaresVariable line key value := by
  constructor
  · intro h
    generalize hline : line ++ tail = all at h
    cases h with
    | bare hfront hkey hequals hbehind =>
      obtain ⟨rest, rfl, rfl⟩ :=
        Text.exists_of_append_eq_append hline htail fun _ => hkey.last_append _
      exact .bare hfront hkey hequals fun c hc => hbehind c (List.mem_append_left _ hc)
    | @given front _ back raw behind hfront hkey hequals hback hraw hbehind =>
      -- Where no value is given, the last character that is not blank is the equals sign.
      have hlast : ∀ c, (variableLead ++ front ++ key ++ back ++ '=' :: raw).getLast? = some c →
          isBlank c = false := fun _ => Text.isBlank_getLast_append_cons isBlank_equals hraw
      obtain ⟨rest, rfl, rfl⟩ := Text.exists_of_append_eq_append hline htail hlast
      exact .given hfront hkey hequals hback hraw fun c hc => hbehind c (List.mem_append_left _ hc)
  · intro h
    cases h with
    | bare hfront hkey hequals hbehind =>
      rw [List.append_assoc _ _ tail]
      exact .bare hfront hkey hequals (hbehind.append htail)
    | given hfront hkey hequals hback hraw hbehind =>
      rw [List.append_assoc _ _ tail]
      exact .given hfront hkey hequals hback hraw (hbehind.append htail)

theorem baseUrl?_append_blanks {tail : Text} (htail : tail.AllBlank) (line : Text) :
    baseUrl? (line ++ tail) = baseUrl? line := by
  ext url
  rw [baseUrl?_eq_some_iff, baseUrl?_eq_some_iff, declaresUrl_append_iff htail]

theorem assignment?_append_blanks {tail : Text} (htail : tail.AllBlank) (line : Text) :
    assignment? (line ++ tail) = assignment? line := by
  ext ⟨key, value⟩
  rw [assignment?_eq_some_iff, assignment?_eq_some_iff, declaresVariable_append_iff htail]

/-! ### The whole grammar -/

/-- Nothing but blanks would be cast to zero. -/
theorem ofText_of_allBlank {raw : Text} (hraw : raw.AllBlank) (hne : raw ≠ []) :
    EnvValue.ofText raw = .number .zero := by
  apply EnvValue.ofText_of_number? hne
  unfold Literal.number?
  rw [hraw.trim_eq_nil]
  rfl

/-- Behind an equals sign, nothing but blanks is no value. -/
theorem assignment?_of_allBlank {name raw key : Text} {value : EnvValue} (hequals : '=' ∉ name)
    (hraw : raw.AllBlank)
    (h : assignment? (variableLead ++ (name ++ '=' :: raw)) = some (key, value)) :
    value = .absent := by
  rw [assignment?_equals hequals, hraw.trimEnd_eq_nil, Option.ite_none_left_eq_some] at h
  obtain ⟨-, heq⟩ := h
  obtain ⟨-, rfl⟩ := Prod.mk.inj (Option.some.inj heq)
  rfl

/-- **The grammar of directives.** A line declares a base URL or a variable exactly when it is one
of the lines that should, and no line declares both. Blanks put behind a line change neither. So a
text of nothing but blanks behind an equals sign leaves the variable without a value, though cast as
it stands it would be the number zero. -/
theorem directives_grammar (line : Text) :
    (∀ url, baseUrl? line = some url ↔ DeclaresUrl line url) ∧
    (∀ key value, assignment? line = some (key, value) ↔ DeclaresVariable line key value) ∧
    (baseUrl? line = none ∨ assignment? line = none) ∧
    (∀ tail : Text, tail.AllBlank →
      baseUrl? (line ++ tail) = baseUrl? line ∧ assignment? (line ++ tail) = assignment? line) ∧
    (∀ name raw : Text, '=' ∉ name → raw.AllBlank → raw ≠ [] →
      line = variableLead ++ (name ++ '=' :: raw) →
      EnvValue.ofText raw = .number .zero ∧
      ∀ key value, assignment? line = some (key, value) → value = .absent) := by
  refine ⟨fun _ => baseUrl?_eq_some_iff, fun _ _ => assignment?_eq_some_iff, ?_, ?_, ?_⟩
  · cases h : assignment? line with
    | none => exact .inr rfl
    | some entry => exact .inl (baseUrl?_eq_none_of_assignment? h)
  · intro tail htail
    exact ⟨baseUrl?_append_blanks htail line, assignment?_append_blanks htail line⟩
  · rintro name raw hequals hraw hne rfl
    exact ⟨ofText_of_allBlank hraw hne, fun key value => assignment?_of_allBlank hequals hraw⟩

/-- A line with blanks around a key, and nothing but blanks for a value. -/
def flagLine : Text := "CYPRESS_ flag\t=\u3000 ".toList

/-- The flag is declared without a value, with a carriage return behind the line as without. -/
theorem directives_grammar_flag :
    EnvValue.ofText "\u3000 ".toList = .number .zero ∧
    assignment? (flagLine ++ "\r".toList) = some ("flag".toList, .absent) ∧
    baseUrl? flagLine = none := by
  obtain ⟨-, -, hboth, htail, hblank⟩ := directives_grammar flagLine
  have hflag : assignment? flagLine = some ("flag".toList, .absent) := rfl
  obtain ⟨-, hreturn⟩ := htail "\r".toList (by decide)
  obtain ⟨hzero, -⟩ :=
    hblank " flag\t".toList "\u3000 ".toList (by decide) (by decide) (by decide) rfl
  refine ⟨hzero, hreturn.trans hflag, hboth.resolve_right ?_⟩
  rw [hflag]
  exact Option.some_ne_none _

end Directive
end PullPlan
