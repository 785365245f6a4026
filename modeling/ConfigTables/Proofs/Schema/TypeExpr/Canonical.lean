import ConfigTables.Proofs.Schema.TypeExpr.Grammar

/-!
    The canonical text of a type. A type is well formed when the grammar can name all of it: no
    nullable stands directly under a nullable, and every name is a word that is no primitive's. Only
    such types are ever read, and exactly these are read back from their texts. The text of a
    well-formed type has no blank at its ends, so it denotes the type part by part as it is printed. -/

namespace ConfigTables.TypeExpr

/-- No nullable stands directly under a nullable, and each name is a word and no primitive's name. -/
def WellFormed : TypeExpr → Prop
  | primitive _ => True
  | named name => IsWord name.toList ∧ ∀ p : Primitive, p.name ≠ name
  | sequence _ element => element.WellFormed
  | map key value => key.WellFormed ∧ value.WellFormed
  | nullable inner => inner.WellFormed ∧ inner.isNullable = false

/-- The grammar denotes well-formed types only. -/
theorem Denotes.wellFormed {s : List Char} {t : TypeExpr} (h : Denotes s t) : t.WellFormed := by
  induction h with
  | nullable _ _ hnullable ih => exact ⟨ih, hnullable⟩
  | sequence _ _ _ _ ih => exact ih
  | map _ _ _ _ _ ihKey ihValue => exact ⟨ihKey, ihValue⟩
  | primitive _ _ => trivial
  | named hword hname hnew => exact ⟨hname ▸ hword, hnew⟩

theorem toList_text_sequence (kind : Sequence) (element : TypeExpr) :
    (sequence kind element).text.toList =
      kind.name.toList ++ '<' :: (element.text.toList ++ ['>']) := by
  simp [text]

theorem toList_text_map (key value : TypeExpr) : (map key value).text.toList =
    "map".toList ++ '<' :: (key.text.toList ++ ',' :: (value.text.toList ++ ['>'])) := by
  simp [text]

theorem toList_text_nullable (inner : TypeExpr) :
    (nullable inner).text.toList = inner.text.toList ++ ['?'] := by
  simp [text]

/-- The text of a well-formed type is not empty and has no blank at its ends. -/
theorem isTrimmed_text {t : TypeExpr} (h : t.WellFormed) :
    t.text.toList ≠ [] ∧ Text.IsTrimmed t.text.toList := by
  induction t with
  | primitive p => exact ⟨p.isWord_name.ne_nil, p.isWord_name.isTrimmed⟩
  | named name => exact ⟨h.1.ne_nil, h.1.isTrimmed⟩
  | sequence kind element =>
    have hkind := kind.isWord_name
    rw [toList_text_sequence, ← List.cons_append, ← List.append_assoc]
    exact ⟨by simp, hkind.isTrimmed.append_concat hkind.ne_nil _ (by decide)⟩
  | map key value =>
    have hsplit : (map key value).text.toList =
        "map".toList ++ ('<' :: (key.text.toList ++ ',' :: value.text.toList)) ++ ['>'] := by
      rw [toList_text_map]
      simp
    rw [hsplit]
    exact ⟨by simp, isWord_map.isTrimmed.append_concat isWord_map.ne_nil _ (by decide)⟩
  | nullable inner ih =>
    obtain ⟨hne, htrim⟩ := ih h.1
    rw [toList_text_nullable]
    exact ⟨by simp, by simpa using htrim.append_concat hne [] (c := '?') (by decide)⟩

theorem trim_text {t : TypeExpr} (h : t.WellFormed) : Text.trim t.text.toList = t.text.toList :=
  (isTrimmed_text h).2.trim_eq

/-- The text of a well-formed type denotes the type. -/
theorem denotes_text {t : TypeExpr} (h : t.WellFormed) : Denotes t.text.toList t := by
  have htrim := trim_text h
  induction t with
  | primitive p => exact .primitive (htrim.symm ▸ p.isWord_name) htrim
  | named name => exact .named (htrim.symm ▸ h.1) htrim h.2
  | sequence kind element ih =>
    have hkind := kind.isWord_name
    exact .sequence (htrim.trans (toList_text_sequence kind element))
      (fun hmem => (hkind.plain _ hmem).1 rfl) hkind.isTrimmed.trim_eq
      (ih h (trim_text (t := element) h))
  | map key value ihKey ihValue =>
    exact .map (htrim.trans (toList_text_map key value))
      (fun hmem => (isWord_map.plain _ hmem).1 rfl) isWord_map.isTrimmed.trim_eq
      (ihKey h.1 (trim_text h.1)) (ihValue h.2 (trim_text h.2))
  | nullable inner ih =>
    exact .nullable (htrim.trans (toList_text_nullable inner)) (ih h.1 (trim_text h.1)) h.2

/-- The text of a type is a canonical form. Every type that is read is well formed, and a type is read
back from its own text just when it is. Hence two expressions that are read as one type print the
same, and expressions that are read as different types print differently. -/
theorem parse_text_canonical :
    (∀ (expr : String) (t : TypeExpr), parse expr = .ok t → t.WellFormed) ∧
    (∀ t : TypeExpr, parse t.text = .ok t ↔ t.WellFormed) ∧
    ∀ (expr expr' : String) (t t' : TypeExpr), parse expr = .ok t → parse expr' = .ok t' →
      (t.text = t'.text ↔ t = t') := by
  have hwell : ∀ (expr : String) (t : TypeExpr), parse expr = .ok t → t.WellFormed :=
    fun expr t h => (denotes_of_ofText h).wellFormed
  have hback : ∀ t : TypeExpr, t.WellFormed → parse t.text = .ok t :=
    fun t h => ofText_of_denotes (denotes_text h) rfl
  refine ⟨hwell, fun t => ⟨hwell t.text t, hback t⟩, fun expr expr' t t' ht ht' => ⟨?_, ?_⟩⟩
  · intro htext
    have hread := hback t (hwell expr t ht)
    rw [htext, hback t' (hwell expr' t' ht')] at hread
    exact (Except.ok.inj hread).symm
  · rintro rfl
    rfl

/-- A name may hold a question mark that is not its last character, and a type that is nullable twice
is not read back. -/
theorem rewards_text_canonical :
    let rewards : TypeExpr := .map (.primitive .int) (.nullable (.sequence .list (.named "a?b")))
    let twice : TypeExpr := .nullable (.nullable (.primitive .int))
    parse "map<int,list<a?b>?>" = .ok rewards ∧ parse " map<int,list<a?b>?>" = .ok rewards ∧
      rewards.WellFormed ∧ parse "int??" ≠ .ok twice ∧
      rewards.text ≠ (primitive .int).text := by
  intro rewards twice
  have hnew : ∀ p : Primitive, p.name ≠ "a?b" := by
    intro p
    cases p <;> decide
  have hwell : rewards.WellFormed := ⟨trivial, ⟨by decide, hnew⟩, rfl⟩
  have hread : parse "map<int,list<a?b>?>" = .ok rewards :=
    (parse_text_canonical.2.1 rewards).2 hwell
  have hspaced : parse " map<int,list<a?b>?>" = .ok rewards :=
    ofText_of_denotes (denotes_text hwell) (by decide)
  have hint : parse "int" = .ok (primitive .int) :=
    (parse_text_canonical.2.1 (primitive .int)).2 trivial
  refine ⟨hread, hspaced, parse_text_canonical.1 _ _ hspaced, fun h => ?_, fun h => ?_⟩
  · exact absurd ((parse_text_canonical.2.1 twice).1 h).2 (by decide)
  · exact absurd ((parse_text_canonical.2.2 _ _ _ _ hspaced hint).1 h) (by decide)

end ConfigTables.TypeExpr
