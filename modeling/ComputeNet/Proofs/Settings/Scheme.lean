import Mathlib.Data.List.Infix
import ComputeNet.Settings.Basic

/-!
# The scheme of the endpoint for subscriptions

Where no endpoint for subscriptions is given, it is made from the other endpoint by two
replacements, each of the first occurrence of a scheme anywhere in the text. The scheme at the front
is always replaced; whatever else is replaced stands in the rest (`webSocketUrlOf_secure`,
`webSocketUrlOf_plain`). So the two endpoints differ in the scheme only, exactly if the rest does
not name the other scheme (`differsOnlyInScheme_iff`).
-/

namespace ComputeNet.Settings

/-! ## The first occurrence -/

section replaceFirst

variable {part other cs : List Char}

theorem replaceFirst_cons (c : Char) : replaceFirst part other (c :: cs) =
    if part <+: c :: cs then other ++ (c :: cs).drop part.length
    else c :: replaceFirst part other cs := by
  simp only [replaceFirst, List.isPrefixOf_iff_prefix]

theorem replaceFirst_append_self (hne : part ≠ []) :
    replaceFirst part other (part ++ cs) = other ++ cs := by
  cases part with
  | nil => exact absurd rfl hne
  | cons c part =>
    have hprefix : c :: part <+: c :: (part ++ cs) := List.prefix_append (c :: part) cs
    rw [List.cons_append, replaceFirst_cons, if_pos hprefix, ← List.cons_append, List.drop_left]

/-- No occurrence begins in a text without the first character of the part. -/
theorem replaceFirst_append_of_notMem {c : Char} {front : List Char} (h : c ∉ front) :
    replaceFirst (c :: part) other (front ++ cs) = front ++ replaceFirst (c :: part) other cs := by
  induction front with
  | nil => rfl
  | cons d front ih =>
    rw [List.mem_cons, not_or] at h
    have hnot : ¬c :: part <+: d :: (front ++ cs) := fun hprefix =>
      h.1 (List.cons_prefix_cons.mp hprefix).1
    rw [List.cons_append, replaceFirst_cons, if_neg hnot, ih h.2, List.cons_append]

/-- Either the part does not occur, or its first occurrence is replaced: one that would not be
there without its last character. -/
theorem replaceFirst_cases (hne : part ≠ []) (other cs : List Char) :
    (¬part <:+: cs ∧ replaceFirst part other cs = cs) ∨
    ∃ before after, cs = before ++ part ++ after ∧ ¬part <:+: before ++ part.dropLast ∧
      replaceFirst part other cs = before ++ other ++ after := by
  induction cs with
  | nil =>
    left
    simp [replaceFirst, hne]
  | cons c cs ih =>
    rw [replaceFirst_cons]
    by_cases hprefix : part <+: c :: cs
    · right
      obtain ⟨after, hafter⟩ := hprefix
      refine ⟨[], after, hafter.symm, ?_, ?_⟩
      · intro hinfix
        have hle := hinfix.length_le
        have hpos := List.length_pos_of_ne_nil hne
        simp only [List.nil_append, List.length_dropLast] at hle
        omega
      · rw [if_pos ⟨after, hafter⟩, ← hafter, List.drop_left, List.nil_append]
    · rw [if_neg hprefix]
      rcases ih with ⟨hnot, hsame⟩ | ⟨before, after, rfl, hfirst, hreplaced⟩
      · left
        refine ⟨fun hinfix => ?_, by rw [hsame]⟩
        exact (List.infix_cons_iff.mp hinfix).elim hprefix hnot
      · right
        refine ⟨c :: before, after, rfl, fun hinfix => ?_, by rw [hreplaced]; rfl⟩
        rcases List.infix_cons_iff.mp hinfix with hbegin | hlater
        · have hcut : c :: (before ++ part.dropLast) <+: c :: (before ++ part ++ after) := by
            rw [List.append_assoc]
            exact List.cons_prefix_cons.mpr ⟨rfl, (List.prefix_append_right_inj before).mpr
              ((List.dropLast_prefix part).trans (List.prefix_append part after))⟩
          exact hprefix (hbegin.trans hcut)
        · exact hfirst hlater

/-- A part of another length is replaced unless it does not occur. -/
private theorem replaceFirst_eq_self_iff (hne : part ≠ []) (hlength : other.length ≠ part.length) :
    replaceFirst part other cs = cs ↔ ¬part <:+: cs := by
  rcases replaceFirst_cases hne other cs with ⟨hnot, hsame⟩ | ⟨before, after, rfl, -, hreplaced⟩
  · exact iff_of_true hsame hnot
  · refine iff_of_false (fun hsame => hlength ?_) (not_not_intro ⟨before, after, rfl⟩)
    have hlengths := congrArg List.length (hreplaced.symm.trans hsame)
    simp only [List.length_append] at hlengths
    omega

end replaceFirst

/-! ## Endpoints -/

/-- What becomes of an endpoint under the secure scheme. -/
theorem webSocketUrlOf_secure (rest : String) : webSocketUrlOf ("https://" ++ rest) =
    "wss://" ++ String.ofList (replaceFirst "http://".toList "ws://".toList rest.toList) := by
  have hfront : replaceFirst "https://".toList "wss://".toList ("https://" ++ rest).toList =
      "wss://".toList ++ rest.toList := by
    rw [String.toList_append, replaceFirst_append_self (by decide)]
  have hrest : replaceFirst "http://".toList "ws://".toList ("wss://".toList ++ rest.toList) =
      "wss://".toList ++ replaceFirst "http://".toList "ws://".toList rest.toList :=
    replaceFirst_append_of_notMem (by decide)
  rw [webSocketUrlOf, hfront, hrest, String.ofList_append, String.ofList_toList]

/-- What becomes of an endpoint under the plain scheme. -/
theorem webSocketUrlOf_plain (rest : String) : webSocketUrlOf ("http://" ++ rest) =
    "ws://" ++ String.ofList (replaceFirst "https://".toList "wss://".toList rest.toList) := by
  have hnot : ¬"https://".toList <+: 'h' :: ("ttp://".toList ++ rest.toList) := by
    simp [List.cons_prefix_cons]
  have hrest : replaceFirst "https://".toList "wss://".toList ("http://" ++ rest).toList =
      "http://".toList ++ replaceFirst "https://".toList "wss://".toList rest.toList := by
    rw [String.toList_append]
    change replaceFirst _ _ ('h' :: ("ttp://".toList ++ rest.toList)) = _
    rw [replaceFirst_cons, if_neg hnot]
    exact congrArg ('h' :: ·) (replaceFirst_append_of_notMem (by decide))
  rw [webSocketUrlOf, hrest, replaceFirst_append_self (by decide), String.ofList_append,
    String.ofList_toList]

/-- The endpoint for subscriptions is the other endpoint under the scheme that goes with its own. -/
def DiffersOnlyInScheme (rpcUrl wsUrl : String) : Prop :=
  ∀ rest, (rpcUrl = "https://" ++ rest → wsUrl = "wss://" ++ rest) ∧
    (rpcUrl = "http://" ++ rest → wsUrl = "ws://" ++ rest)

/-- The rest of an endpoint names the scheme that is not its own. -/
def NamesOtherScheme (rpcUrl : String) : Prop :=
  ∃ rest, (rpcUrl = "https://" ++ rest ∧ "http://".toList <:+: rest.toList) ∨
    (rpcUrl = "http://" ++ rest ∧ "https://".toList <:+: rest.toList)

/-- What the endpoint for subscriptions is where it is made from the other endpoint. -/
structure SchemesReplaced (rpcUrl wsUrl : String) : Prop where
  /-- More than the scheme differs exactly if the rest names the other scheme. -/
  differsOnlyInScheme_iff : DiffersOnlyInScheme rpcUrl wsUrl ↔ ¬NamesOtherScheme rpcUrl
  /-- Then the other scheme is replaced too, once. -/
  of_namesOtherScheme : NamesOtherScheme rpcUrl → ∃ before after,
    (rpcUrl = "https://" ++ before ++ "http://" ++ after ∧
      wsUrl = "wss://" ++ before ++ "ws://" ++ after) ∨
    (rpcUrl = "http://" ++ before ++ "https://" ++ after ∧
      wsUrl = "ws://" ++ before ++ "wss://" ++ after)

/-- A rest is kept exactly if it does not name the scheme that is replaced. -/
theorem append_replaceFirst_eq_iff {front scheme other : String} (rest : String)
    (hne : scheme.toList ≠ []) (hlength : other.toList.length ≠ scheme.toList.length) :
    front ++ String.ofList (replaceFirst scheme.toList other.toList rest.toList) = front ++ rest ↔
      ¬scheme.toList <:+: rest.toList := by
  rw [← replaceFirst_eq_self_iff hne hlength, String.append_right_inj, ← String.toList_inj,
    String.toList_ofList]

/-- A rest that names the scheme is replaced at one place. -/
theorem exists_replaceFirst_eq {scheme other : String} {rest : String} (hne : scheme.toList ≠ [])
    (hnames : scheme.toList <:+: rest.toList) : ∃ before after, rest = before ++ scheme ++ after ∧
      String.ofList (replaceFirst scheme.toList other.toList rest.toList) =
        before ++ other ++ after := by
  rcases replaceFirst_cases hne other.toList rest.toList with
    ⟨hnot, -⟩ | ⟨before, after, hrest, -, hreplaced⟩
  · exact absurd hnames hnot
  · refine ⟨String.ofList before, String.ofList after, ?_, ?_⟩
    · rw [← String.toList_inj, hrest]
      simp
    · rw [hreplaced]
      simp only [String.ofList_append, String.ofList_toList]

theorem schemesReplaced_webSocketUrlOf (rpcUrl : String) :
    SchemesReplaced rpcUrl (webSocketUrlOf rpcUrl) := by
  have hsecure (rest : String) : webSocketUrlOf ("https://" ++ rest) = "wss://" ++ rest ↔
      ¬"http://".toList <:+: rest.toList := by
    rw [webSocketUrlOf_secure]
    exact append_replaceFirst_eq_iff rest (by decide) (by decide)
  have hplain (rest : String) : webSocketUrlOf ("http://" ++ rest) = "ws://" ++ rest ↔
      ¬"https://".toList <:+: rest.toList := by
    rw [webSocketUrlOf_plain]
    exact append_replaceFirst_eq_iff rest (by decide) (by decide)
  refine ⟨⟨?_, ?_⟩, ?_⟩
  · rintro h ⟨rest, ⟨rfl, hnames⟩ | ⟨rfl, hnames⟩⟩
    · exact (hsecure rest).mp ((h rest).1 rfl) hnames
    · exact (hplain rest).mp ((h rest).2 rfl) hnames
  · intro h rest
    constructor
    · rintro rfl
      exact (hsecure rest).mpr fun hnames => h ⟨rest, Or.inl ⟨rfl, hnames⟩⟩
    · rintro rfl
      exact (hplain rest).mpr fun hnames => h ⟨rest, Or.inr ⟨rfl, hnames⟩⟩
  · rintro ⟨rest, ⟨rfl, hnames⟩ | ⟨rfl, hnames⟩⟩
    · obtain ⟨before, after, hrest, hreplaced⟩ :=
        exists_replaceFirst_eq (by decide) hnames
      refine ⟨before, after, Or.inl ⟨?_, ?_⟩⟩
      · simp only [hrest, String.append_assoc]
      · rw [webSocketUrlOf_secure, hreplaced]
        simp only [String.append_assoc]
    · obtain ⟨before, after, hrest, hreplaced⟩ :=
        exists_replaceFirst_eq (by decide) hnames
      refine ⟨before, after, Or.inr ⟨?_, ?_⟩⟩
      · simp only [hrest, String.append_assoc]
      · rw [webSocketUrlOf_plain, hreplaced]
        simp only [String.append_assoc]

/-- Where no endpoint for subscriptions is given, it is the other endpoint under the other scheme,
unless the rest of that endpoint names the scheme that is not its own. The same holds of an endpoint
that the environment gives. -/
theorem schemesReplaced_webSocketUrl (s : Settings) (environment : String → Option String)
    (hnone : s.wsUrl = none) (hunset : environment wsUrlVariable = none) :
    SchemesReplaced s.rpcUrl s.webSocketUrl ∧
    ∀ url, environment rpcUrlVariable = some url →
      SchemesReplaced url (s.withEnvironment environment).webSocketUrl := by
  constructor
  · rw [webSocketUrl, hnone]
    exact schemesReplaced_webSocketUrlOf s.rpcUrl
  · intro url hurl
    have hsame : (s.withEnvironment environment).webSocketUrl = webSocketUrlOf url := by
      simp [webSocketUrl, withEnvironment, hnone, hunset, hurl]
    rw [hsame]
    exact schemesReplaced_webSocketUrlOf url

/-! ## An endpoint that names another one -/

def forwarded : Settings where
  rpcUrl := "http://a?x=https://b"
  networkAuthority := ""

/-- An environment with an endpoint that names no other. -/
def direct (name : String) : Option String :=
  if name = rpcUrlVariable then some "https://node/rpc" else none

private theorem namesOtherScheme_forwarded : NamesOtherScheme forwarded.rpcUrl :=
  ⟨"a?x=https://b", Or.inr ⟨rfl, "a?x=".toList, "b".toList, rfl⟩⟩

private theorem not_namesOtherScheme_direct : ¬NamesOtherScheme "https://node/rpc" := by
  rintro ⟨rest, ⟨hrest, hnames⟩ | ⟨hrest, -⟩⟩
  · change "https://" ++ "node/rpc" = "https://" ++ rest at hrest
    rw [← (String.append_right_inj "https://").mp hrest] at hnames
    exact absurd hnames (by decide)
  · have hchars := congrArg String.toList hrest
    simp at hchars

/-- The endpoint that the environment gives differs in the scheme only, the other one does not. -/
theorem schemesReplaced_direct :
    forwarded.wsUrl = none ∧ direct wsUrlVariable = none ∧
      ¬DiffersOnlyInScheme forwarded.rpcUrl forwarded.webSocketUrl ∧
      DiffersOnlyInScheme "https://node/rpc" (forwarded.withEnvironment direct).webSocketUrl := by
  have hunset : direct wsUrlVariable = none := by decide
  obtain ⟨hown, hgiven⟩ := schemesReplaced_webSocketUrl forwarded direct rfl hunset
  refine ⟨rfl, hunset, fun h => ?_, ?_⟩
  · exact hown.differsOnlyInScheme_iff.mp h namesOtherScheme_forwarded
  · exact (hgiven _ (by decide)).differsOnlyInScheme_iff.mpr not_namesOtherScheme_direct

/-- More than the scheme may differ. -/
theorem not_forall_differsOnlyInScheme : ¬∀ s : Settings, s.wsUrl = none →
    DiffersOnlyInScheme s.rpcUrl s.webSocketUrl := by
  intro h
  have hplain := (h forwarded rfl "a?x=https://b").2 rfl
  have hactual : forwarded.webSocketUrl = "ws://a?x=wss://b" := by decide
  rw [hactual] at hplain
  exact absurd hplain (by decide)

end ComputeNet.Settings
