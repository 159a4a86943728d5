/-
  ScreenInspector/Proofs/StableTags.lean
  ======================================
  **Tags are names everywhere, and tags of themselves.**

  Whatever a kind is, its tag has the shape `IsTag`.  Such a text is a name to the reader of markup
  (`readNodes_emptyElement`) and to the reader of expressions (`scan_of_isTag`), which look for
  names independently of one another.

  A tag is made of the simple name of the kind alone, which is what follows the last dot and then
  the last dollar sign (`IsSimpleName`); every kind has exactly one (`isSimpleName_iff`).  A text
  that has the shape of a tag holds neither of the two and is its own tag (`tagChars_of_isTag`).
-/
import ScreenInspector.Proofs.ExpressionText
import ScreenInspector.Proofs.SourceReading

namespace ScreenInspector

/-! ### Simple names -/

/-- A text is what follows the last `separator` of another one, or all of it if there is none. -/
def FollowsLast (separator : Char) (whole part : List Char) : Prop :=
  separator ∉ part ∧ (whole = part ∨ ∃ before, whole = before ++ separator :: part)

/-- A text is what follows the last dot of a kind and in that the last dollar sign. -/
def IsSimpleName (kind simple : List Char) : Prop :=
  ∃ className, FollowsLast '.' kind className ∧ FollowsLast '$' className simple

section AfterLast

variable {separator : Char} {whole part : List Char}

theorem ne_of_mem_of_not_mem_separator (h : separator ∉ part) :
    ∀ c ∈ part.reverse, (c != separator) = true := by
  intro c hc
  rw [bne_iff_ne]
  rintro rfl
  exact h (List.mem_reverse.mp hc)

theorem FollowsLast.eq_afterLast (h : FollowsLast separator whole part) :
    part = afterLast separator whole := by
  obtain ⟨hpart, rfl | ⟨before, rfl⟩⟩ := h
  · rw [afterLast, List.takeWhile_eq_self_iff.mpr (ne_of_mem_of_not_mem_separator hpart),
      List.reverse_reverse]
  · have hstop : ∀ d ∈ (separator :: before.reverse).head?, (d != separator) = false :=
      Expression.forall_mem_head? (by simp)
    obtain ⟨htake, -⟩ := Expression.run_append (ne_of_mem_of_not_mem_separator hpart) hstop
    rw [afterLast, List.reverse_append, List.reverse_cons, List.append_assoc,
      List.singleton_append, htake, List.reverse_reverse]

theorem followsLast_afterLast (separator : Char) (whole : List Char) :
    FollowsLast separator whole (afterLast separator whole) := by
  constructor
  · intro hmem
    have h := List.mem_takeWhile_imp (List.mem_reverse.mp hmem)
    simp at h
  · have hwhole := List.takeWhile_append_dropWhile (p := (· != separator)) (l := whole.reverse)
    cases hdrop : whole.reverse.dropWhile (· != separator) with
    | nil =>
      left
      rw [hdrop, List.append_nil] at hwhole
      rw [afterLast, hwhole, List.reverse_reverse]
    | cons c more =>
      right
      have hc : c = separator := by
        have hhead := List.head?_dropWhile_not (· != separator) whole.reverse
        rw [hdrop] at hhead
        simpa using hhead
      refine ⟨more.reverse, ?_⟩
      have hreverse := congrArg List.reverse hwhole
      rw [hdrop, hc, List.reverse_append, List.reverse_cons, List.reverse_reverse,
        List.append_assoc, List.singleton_append] at hreverse
      exact hreverse.symm

theorem followsLast_iff : FollowsLast separator whole part ↔ part = afterLast separator whole := by
  constructor
  · exact FollowsLast.eq_afterLast
  · rintro rfl
    exact followsLast_afterLast separator whole

end AfterLast

/-- **Every kind has exactly one simple name.** -/
theorem isSimpleName_iff {kind simple : List Char} :
    IsSimpleName kind simple ↔ simple = afterLast '$' (afterLast '.' kind) := by
  simp only [IsSimpleName, followsLast_iff]
  constructor
  · rintro ⟨className, rfl, rfl⟩
    rfl
  · rintro rfl
    exact ⟨_, rfl, rfl⟩

/-- **A tag is made of the simple name alone.** -/
theorem tagChars_congr {kind other simple : List Char} (hkind : IsSimpleName kind simple)
    (hother : IsSimpleName other simple) : tagChars other = tagChars kind := by
  rw [isSimpleName_iff] at hkind hother
  simp only [tagChars, ← hkind, ← hother]

/-! ### Tags of tags -/

theorem isSimpleName_of_isTag {cs : List Char} (h : IsTag cs) : IsSimpleName cs cs :=
  ⟨cs, ⟨h.not_mem (by decide), Or.inl rfl⟩, ⟨h.not_mem (by decide), Or.inl rfl⟩⟩

/-- **What has the shape of a tag is its own tag.** -/
theorem tagChars_of_isTag {cs : List Char} (h : IsTag cs) : tagChars cs = cs := by
  have hsimple := isSimpleName_iff.mp (isSimpleName_of_isTag h)
  have hmap : (cs.map fun c => if isTagChar c then c else '_') = cs := by
    rw [List.map_congr_left fun c hc => if_pos (h.all_isTagChar c hc), List.map_id']
  cases cs with
  | nil => exact h.elim
  | cons c rest => simp only [tagChars, ← hsimple, hmap, if_pos h.1]

/-! ### Tags as names -/

theorem afterDeclaration_of_isNameStart {c : Char} (hc : Markup.isNameStart c = true)
    (cs : List Char) : Markup.afterDeclaration ('<' :: c :: cs) = .ok ('<' :: c :: cs) := by
  have hquestion := Markup.ne_of_isNameStart hc (d := '?') (by decide)
  simp only [Markup.afterDeclaration]
  split
  next heq =>
    obtain ⟨-, heq⟩ := List.cons.inj heq
    exact absurd (List.cons.inj heq).1 hquestion
  next => rfl

/-- **A name is read as the name of an element** that has nothing in it. -/
theorem readNodes_emptyElement {name : List Char} (h : Markup.isName name = true) :
    Markup.readNodes ("<" ++ String.ofList name ++ "/>") =
      .ok [.element (String.ofList name) [] []] := by
  have hreads : Markup.Reads ('<' :: (name ++ (Markup.writtenAttributes [] ++
      (Markup.tagEnd true ++ [])))) [.startTag ⟨[], name⟩ [] true] :=
    Markup.reads_startTag h (by simp) (by simp) true Markup.Reads.nil
  have htext : ("<" ++ String.ofList name ++ "/>").toList =
      '<' :: (name ++ (Markup.writtenAttributes [] ++ (Markup.tagEnd true ++ []))) := by
    simp [Markup.writtenAttributes, Markup.tagEnd]
  have hbody : Markup.afterDeclaration ("<" ++ String.ofList name ++ "/>").toList =
      .ok ("<" ++ String.ofList name ++ "/>").toList := by
    obtain ⟨c, cs, rfl, hstart⟩ := Markup.exists_cons_of_isName h
    rw [htext]
    exact afterDeclaration_of_isNameStart hstart _
  rw [← htext] at hreads
  rw [Markup.readNodes, Markup.Token.scan, hbody, ok_bind, hreads _ (Nat.le_refl _)]
  rfl

/-- **A tag is one token of an expression.** -/
theorem scan_of_isTag {tag : List Char} (h : IsTag tag) :
    Expression.Token.scan (String.ofList tag) = .ok [.name (String.ofList tag)] := by
  have hname := Expression.Scans.name h (by simp) Expression.Scans.nil
  rw [List.append_nil] at hname
  apply Expression.Scans.scan
  rwa [String.toList_ofList]

/-! ### The main result -/

/-- **Tags are safe and stable**, whatever the kind is.  A tag is not empty, begins with an ASCII
letter or an underscore and is made of ASCII letters, digits, underscores and hyphens.  So it has no
colon and is the name of an element in markup, and in an expression it is one token, the name that
it is.  A tag is the tag of itself.  A kind has one simple name, what follows the last dot and in
that the last dollar sign; the tag is this name if it has the shape of a tag, and in any case all
kinds with this simple name have the same tag. -/
theorem tagName_stable (kind : String) :
    (∃ c cs, (tagName kind).toList = c :: cs ∧ (c.isAlpha = true ∨ c = '_') ∧
      ∀ d ∈ c :: cs, d.toNat < 0x80 ∧ (d.isAlphanum = true ∨ d = '_' ∨ d = '-')) ∧
    (':' ∉ (tagName kind).toList ∧ Markup.isName (tagName kind).toList = true ∧
      Markup.readNodes ("<" ++ tagName kind ++ "/>") = .ok [.element (tagName kind) [] []]) ∧
    Expression.Token.scan (tagName kind) = .ok [.name (tagName kind)] ∧
    tagName (tagName kind) = tagName kind ∧
    (∃! simple, IsSimpleName kind.toList simple) ∧
    ∀ simple, IsSimpleName kind.toList simple →
      (IsTag simple → tagName kind = String.ofList simple) ∧
      ∀ other, IsSimpleName other.toList simple → tagName other = tagName kind := by
  obtain ⟨tag, htag, hkind⟩ : ∃ tag, IsTag tag ∧ tagName kind = String.ofList tag :=
    ⟨_, isTag_tagChars kind.toList, rfl⟩
  have hcolon : ':' ∉ tag := htag.not_mem (by decide)
  have hself : tagName (String.ofList tag) = String.ofList tag := by
    rw [tagName, String.toList_ofList, tagChars_of_isTag htag]
  have hsame : ∀ simple other, IsSimpleName kind.toList simple →
      IsSimpleName other.toList simple → tagName other = String.ofList tag := by
    intro simple other hsimple hother
    rw [← hkind, tagName, tagName, tagChars_congr hsimple hother]
  have hkept : ∀ simple, IsSimpleName kind.toList simple → IsTag simple →
      String.ofList tag = String.ofList simple := by
    intro simple hsimple hshape
    rw [← hkind, tagName, tagChars_congr (isSimpleName_of_isTag hshape) hsimple,
      tagChars_of_isTag hshape]
  rw [hkind, String.toList_ofList]
  refine ⟨htag.exists_cons, ⟨hcolon, htag.markupName, readNodes_emptyElement htag.markupName⟩,
    scan_of_isTag htag, hself, ?_, ?_⟩
  · exact ⟨_, isSimpleName_iff.mpr rfl, fun _ => isSimpleName_iff.mp⟩
  · intro simple hsimple
    exact ⟨hkept simple hsimple, fun other => hsame simple other hsimple⟩

/-- Two kinds with only their simple name in common, which begins with a digit and goes on with what
no tag may hold; and a kind whose simple name is a tag. -/
theorem tagName_stable_inner :
    (IsSimpleName "com.x.Pull$List$9-gr\u00fcn".toList "9-gr\u00fcn".toList ∧
      IsSimpleName "a$b.9-gr\u00fcn".toList "9-gr\u00fcn".toList ∧
      tagName "a$b.9-gr\u00fcn" = tagName "com.x.Pull$List$9-gr\u00fcn" ∧
      tagName "com.x.Pull$List$9-gr\u00fcn" = "_9-gr_n" ∧ tagName "_9-gr_n" = "_9-gr_n") ∧
    IsSimpleName "android.widget.Button".toList ['B', 'u', 't', 't', 'o', 'n'] ∧
    IsTag ['B', 'u', 't', 't', 'o', 'n'] ∧ tagName "android.widget.Button" = "Button" := by
  have hkind : IsSimpleName "com.x.Pull$List$9-gr\u00fcn".toList "9-gr\u00fcn".toList :=
    isSimpleName_iff.mpr (by decide)
  have hother : IsSimpleName "a$b.9-gr\u00fcn".toList "9-gr\u00fcn".toList :=
    isSimpleName_iff.mpr (by decide)
  have htag : tagName "com.x.Pull$List$9-gr\u00fcn" = "_9-gr_n" := by decide
  obtain ⟨-, -, -, hself, -, hsame⟩ := tagName_stable "com.x.Pull$List$9-gr\u00fcn"
  rw [htag] at hself
  have hsimple : IsSimpleName "android.widget.Button".toList ['B', 'u', 't', 't', 'o', 'n'] :=
    isSimpleName_iff.mpr (by decide)
  have hshape : IsTag ['B', 'u', 't', 't', 'o', 'n'] :=
    ⟨by decide, List.all_eq_true.mp (by decide)⟩
  obtain ⟨-, -, -, -, -, hkept⟩ := tagName_stable "android.widget.Button"
  exact ⟨⟨hkind, hother, (hsame _ hkind).2 _ hother, htag, hself⟩, hsimple, hshape,
    (hkept _ hsimple).1 hshape⟩

end ScreenInspector
