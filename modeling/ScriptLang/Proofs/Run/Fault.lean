import ScriptLang.Proofs.Run.Members
import ScriptLang.Proofs.Run.Notices
import ScriptLang.Proofs.Text.Placeholder
import ScriptLang.Run.Fault

/-!
# Filling in the texts of errors

The texts of an error lie in a dictionary, and so do the items that are filled in. Each text is
filled in by `fillIn`, in the order of the items.
-/

namespace ScriptLang

def textEntries (texts : Table String) : List (Value × Value) :=
  texts.map fun e => (.text e.1, .text e.2)

def Host.withTexts (h : Host) (d : Ref) (texts : Table String) : Host :=
  { h with store := h.store.setIfInBounds d (.dict (textEntries texts)) }

/-- A dictionary has a value under the name of an item, with the text of the item. The text is the
same whatever the texts in another dictionary are. -/
def Host.HasItem (h : Host) (d k : Ref) (item : String × String) : Prop :=
  ∃ entries v, h.store[k]? = some (.dict entries) ∧
    h.store.lookup entries (.text item.1) = some v ∧
    ∀ texts, (h.withTexts d texts).store.text (h.withTexts d texts).reader v = .ok item.2

/-- An error with its texts in the dictionary `d`, and a dictionary `k` with the items that are to
be filled in, in their order. -/
structure Fillable (h : Host) (r d k : Ref) (texts : Table String)
    (items : List (String × String)) : Prop where
  fault : ∃ f fields, h.store[r]? = some (.fault f fields) ∧ f.texts = .ref d
  description : h.store[d]? = some (.dict (textEntries texts))
  languages : texts.names.Nodup
  apart : k ≠ d
  names : ∃ entries, h.store[k]? = some (.dict entries) ∧
    entries.map Prod.fst = items.map fun item => .text item.1
  values : ∀ item ∈ items, h.HasItem d k item

variable {h : Host} {r d k : Ref} {texts : Table String} {items : List (String × String)}
  {language text : String}

/-- Replacing a text of an error keeps the order of its languages. -/
theorem Store.insert_textEntries (st : Store) (texts : Table String) (language text : String) :
    st.insert (textEntries texts) (.text language) (.text text) =
      textEntries (texts.set language text) := by
  induction texts with
  | nil => rfl
  | cons e texts ih =>
    simp only [textEntries, List.map_cons, Store.insert, Store.equalItem_text] at ih ⊢
    by_cases hlanguage : e.1 = language
    · simp [Table.set, hlanguage]
    · simp [Table.set, hlanguage, ih]

/-- The text in a language is the one under its name. -/
theorem Store.lookup_textEntries (st : Store) (texts : Table String) (language : String) :
    st.lookup (textEntries texts) (.text language) = (texts.get? language).map .text := by
  induction texts with
  | nil => rfl
  | cons e texts ih =>
    simp only [textEntries, List.map_cons, Store.lookup_cons, Store.equalItem_text,
      Table.get?] at ih ⊢
    by_cases hlanguage : e.1 = language
    · simp [hlanguage]
    · simpa [hlanguage] using ih

theorem Host.withTexts_withTexts (h : Host) (d : Ref) (texts texts' : Table String) :
    (h.withTexts d texts).withTexts d texts' = h.withTexts d texts' := by
  simp [Host.withTexts]

namespace Fillable

/-- Putting in the texts that are there changes nothing. -/
theorem withTexts_self (hf : Fillable h r d k texts items) : h.withTexts d texts = h := by
  have hself : h.store.setIfInBounds d (.dict (textEntries texts)) = h.store := by
    apply Array.ext_getElem?
    intro i
    rw [Array.getElem?_setIfInBounds]
    by_cases hi : d = i
    · subst hi
      rw [if_pos rfl, hf.description, if_pos (Array.getElem?_eq_some_iff.1 hf.description).1]
    · rw [if_neg hi]
  rw [Host.withTexts, hself]

theorem dict?_withTexts (hf : Fillable h r d k texts items) (texts' : Table String) :
    (h.withTexts d texts').store.dict? (.ref d) = some (textEntries texts') := by
  have hd := (Array.getElem?_eq_some_iff.1 hf.description).1
  simp [Host.withTexts, Store.dict?, Store.ofValue?, hd]

/-- Other texts leave the items alone. -/
theorem getElem?_withTexts (hf : Fillable h r d k texts items) (texts' : Table String) :
    (h.withTexts d texts').store[k]? = h.store[k]? := by
  simp [Host.withTexts, hf.apart.symm]

end Fillable

namespace Exec

/-- What fills a placeholder is looked up by its name. -/
theorem run_placeholderItem {name : String} {v : Value} {entries : List (Value × Value)}
    (hk : h.store[k]? = some (.dict entries)) (hv : h.store.lookup entries (.text name) = some v) :
    (placeholderItem (.ref k) name).run h = (.ok v, h) := by
  have hitem : h.store.item? h.reader (.ref k) (.text name) = some v := by
    simp [Store.item?, hk, Store.isHashable, Store.ofValue?, hv]
  have hrun : (item? (.ref k) (.text name)).run h = (.ok (some v), h) := by rw [← hitem]; rfl
  unfold placeholderItem
  rw [HostExec.run_bind, hrun]
  rfl

/-- One placeholder of a text is replaced by the text of its item. -/
theorem run_fillPlaceholder {name value : String} {v : Value} {entries : List (Value × Value)}
    (hk : h.store[k]? = some (.dict entries)) (hv : h.store.lookup entries (.text name) = some v)
    (htext : h.store.text h.reader v = .ok value) (text : String) :
    (fillPlaceholder (.text text) (.text name) (.ref k)).run h =
      (.ok (.text (Text.replace text ("\x7b" ++ name ++ "\x7d") value)), h) := by
  simp only [fillPlaceholder, HostExec.run_bind, run_placeholderItem hk hv,
    HostExec.run_text htext]
  rfl

/-- One placeholder of one text is filled in. -/
theorem run_fillLanguage (hf : Fillable h r d k texts items) {item : String × String}
    (hitem : item ∈ items) {texts' : Table String}
    (htext : texts'.get? language = some text) :
    (fillLanguage d (.text language) (.ref k) (.text item.1)).run (h.withTexts d texts') =
      (.ok (), h.withTexts d (texts'.set language
        (Text.replace text ("\x7b" ++ item.1 ++ "\x7d") item.2))) := by
  obtain ⟨entries, v, hk, hv, hvalue⟩ := hf.values item hitem
  have hv' : (h.withTexts d texts').store.lookup entries (.text item.1) = some v := by
    rw [← hv]
    exact Store.lookup_text_congr _ _ _ _
  have hfill := run_fillPlaceholder ((hf.getElem?_withTexts texts').trans hk) hv'
    (hvalue texts') text
  have hget : (get : HostExec Host).run (h.withTexts d texts') =
    (.ok (h.withTexts d texts'), h.withTexts d texts') := rfl
  simp only [fillLanguage, HostExec.run_bind, hget, hf.dict?_withTexts texts', Option.getD_some,
    Store.lookup_textEntries, htext, Option.map_some, hfill, Store.insert_textEntries]
  exact congrArg (Except.ok (), ·) (h.withTexts_withTexts d _ _)

/-- All placeholders of one text are filled in, in the order of the items. -/
theorem run_fillLanguages (hf : Fillable h r d k texts items) {items' : List (String × String)}
    (hitems : items' ⊆ items) {texts' : Table String}
    (htext : texts'.get? language = some text) :
    (forIn (items'.map fun item => Value.text item.1) PUnit.unit fun key _ => do
      fillLanguage d (.text language) (.ref k) key
      pure (.yield PUnit.unit) : HostExec PUnit).run (h.withTexts d texts') =
      (.ok (), h.withTexts d (texts'.set language (fillIn items' text))) := by
  induction items' generalizing texts' text with
  | nil =>
    rw [fillIn_nil, Table.set_of_get? htext]
    rfl
  | cons item items' ih =>
    rw [List.cons_subset] at hitems
    have hset : (texts'.set language (Text.replace text ("\x7b" ++ item.1 ++ "\x7d") item.2)).get?
        language = some (Text.replace text ("\x7b" ++ item.1 ++ "\x7d") item.2) := by
      rw [Table.get?_set, if_pos rfl]
    simp only [List.map_cons, List.forIn_cons, bind_assoc, pure_bind]
    rw [HostExec.run_bind, run_fillLanguage hf hitems.1 htext, fillIn_cons,
      ← Table.set_set texts' language _ (fillIn items' _)]
    exact ih hitems.2 hset

theorem run_items_names (hf : Fillable h r d k texts items) (texts' : Table String) :
    (Exec.items (.ref k)).run (h.withTexts d texts') =
      (.ok (items.map fun item => .text item.1), h.withTexts d texts') := by
  obtain ⟨entries, hk, hnames⟩ := hf.names
  have hobj : (obj? k).run (h.withTexts d texts') =
      (.ok (some (.dict entries)), h.withTexts d texts') := by
    rw [← hk, ← hf.getElem?_withTexts texts']
    rfl
  have hitems? : (items? (.ref k)).run (h.withTexts d texts') =
      (.ok (some (entries.map Prod.fst)), h.withTexts d texts') := by
    change (obj? k >>= _).run (h.withTexts d texts') = _
    rw [HostExec.run_bind, hobj]
    rfl
  rw [Exec.items, HostExec.run_bind, hitems?, ← hnames]
  rfl

/-- The texts that are left to do are filled in, after those that are done. -/
theorem run_fillTexts (hf : Fillable h r d k texts items) (done todo : Table String)
    (hnodup : (done ++ todo).names.Nodup) :
    (forIn (todo.map fun e => Value.text e.1) PUnit.unit fun lang _ => do
      let names ← Exec.items (.ref k)
      forIn names PUnit.unit fun key _ => do
        fillLanguage d lang (.ref k) key
        pure (.yield PUnit.unit)
      pure (.yield PUnit.unit) : HostExec PUnit).run (h.withTexts d (done ++ todo)) =
      (.ok (), h.withTexts d (done ++ todo.map fun e => (e.1, fillIn items e.2))) := by
  induction todo generalizing done with
  | nil => rfl
  | cons e todo ih =>
    -- No text is filled in twice, for the languages are distinct.
    have hfresh : e.1 ∉ done.names := by
      intro hmem
      simp only [Table.names, List.map_append, List.map_cons] at hnodup hmem
      exact List.disjoint_of_nodup_append hnodup hmem List.mem_cons_self
    have htext : (done ++ e :: todo).get? e.1 = some e.2 := by
      simp [Table.get?_append_of_not_mem hfresh, Table.get?]
    have hset : (done ++ e :: todo).set e.1 (fillIn items e.2) =
        done ++ [(e.1, fillIn items e.2)] ++ todo := by
      simp [Table.set_append_of_not_mem hfresh, Table.set]
    simp only [List.map_cons, List.forIn_cons, bind_assoc, pure_bind]
    rw [HostExec.run_bind, run_items_names hf]
    dsimp only
    rw [HostExec.run_bind, run_fillLanguages hf (List.Subset.refl items) htext, hset,
      List.append_cons _ _ (List.map _ todo)]
    refine ih _ ?_
    simpa [Table.names] using hnodup

/-- Each text of an error is filled in for itself, in the order of the items. -/
theorem run_fillFault (hf : Fillable h r d k texts items) :
    (fillFault r (.ref k)).run h =
      (.ok (), h.withTexts d (texts.map fun e => (e.1, fillIn items e.2))) := by
  obtain ⟨f, fields, hr, hd⟩ := hf.fault
  have hobj : (obj? r).run h = (.ok (some (.fault f fields)), h) := by
    rw [← hr]
    rfl
  have hget : (get : HostExec Host).run h = (.ok h, h) := rfl
  have hdict : h.store.dict? (.ref d) = some (textEntries texts) := by
    rw [← hf.dict?_withTexts texts, hf.withTexts_self]
  have hloop := run_fillTexts hf [] texts hf.languages
  rw [List.nil_append, hf.withTexts_self] at hloop
  have hlanguages : (textEntries texts).map Prod.fst = texts.map fun e => .text e.1 := by
    simp [textEntries]
  simp only [fillFault, HostExec.run_bind, hobj, hget, hd, hdict, hlanguages]
  rw [hloop]
  rfl

end Exec

/-! ### The order of the items -/

/-- Whatever the order of the items, filling in the texts of an error leaves the same texts, with
the placeholders of each filled in. -/
def FilledAlike (items : List (String × String)) (texts : Table String) : Prop :=
  ∃ filled : Table String,
    List.Forall₂ (fun before after => before.1 = after.1 ∧
      Filled items before.2.toList after.2.toList) texts filled ∧
    ∀ h r d k items', items'.Perm items → Fillable h r d k texts items' →
      (Exec.fillFault r (.ref k)).run h = (.ok (), h.withTexts d filled)

def Host.withFault (h : Host) (texts items : Table String) : Host :=
  { h with store := #[.fault ⟨.none, .none, .none, .none, .ref 1, []⟩ [],
    .dict (textEntries texts), .dict (textEntries items)] }

/-- There is a host with such an error, for any texts and items with distinct names. -/
theorem fillable_withFault (h : Host) (htexts : texts.names.Nodup)
    (hitems : (items.map Prod.fst).Nodup) :
    Fillable (h.withFault texts items) 0 1 2 texts items where
  fault := ⟨_, _, rfl, rfl⟩
  description := rfl
  languages := htexts
  apart := by decide
  names := ⟨_, rfl, by simp [textEntries]⟩
  values item hitem := by
    refine ⟨_, .text item.2, rfl, ?_, fun _ => ?_⟩
    · rw [Store.lookup_textEntries, Table.get?_of_mem hitems hitem]
      rfl
    · simp [Store.text, Store.depthBound, Store.textWithin]

/-- Texts whose placeholders are filled in whatever the order is are filled in alike. -/
theorem filledAlike_of_filled (hitems : Named items)
    (h : ∀ e ∈ texts, ∀ items' : List (String × String), items'.Perm items →
      Filled items e.2.toList (fillIn items' e.2).toList) : FilledAlike items texts := by
  refine ⟨texts.map fun e => (e.1, fillIn items e.2), ?_, ?_⟩
  · rw [List.forall₂_map_right_iff, List.forall₂_same]
    exact fun e he => ⟨rfl, h e he items (.refl items)⟩
  · intro host r d k items' hperm hf
    rw [Exec.run_fillFault hf]
    have hfill (e : String × String) (he : e ∈ texts) : fillIn items' e.2 = fillIn items e.2 :=
      String.toList_inj.1 ((h e he items' hperm).unique hitems (h e he items (.refl items)))
    rw [List.map_congr_left fun e he => congrArg (e.1, ·) (hfill e he)]

theorem textEntries_injective : Function.Injective textEntries := by
  refine List.map_injective_iff.2 fun e e' h => ?_
  simpa [Prod.ext_iff] using h

/-- Conversely, an error that is filled in alike has its placeholders filled in. -/
theorem FilledAlike.filled (h : FilledAlike items [(language, text)]) (hitems : Named items)
    {items' : List (String × String)} (hperm : items'.Perm items) :
    Filled items text.toList (fillIn items' text).toList := by
  obtain ⟨filled, hfilled, hrun⟩ := h
  have hf : Fillable (Host.withFault default [(language, text)] items') 0 1 2 [(language, text)]
      items' := fillable_withFault _ (List.nodup_singleton _) (hitems.perm hperm).nodup
  have hsame := (Exec.run_fillFault hf).symm.trans (hrun _ _ _ _ _ hperm hf)
  have htexts : textEntries [(language, fillIn items' text)] = textEntries filled := by
    rw [← Option.some_inj, ← hf.dict?_withTexts, ← hf.dict?_withTexts]
    exact congrArg (fun outcome => outcome.2.store.dict? (.ref 1)) hsame
  obtain rfl := textEntries_injective htexts
  exact (List.forall₂_cons.1 hfilled).1.2

theorem grouped_toList {l : List Char} (htext : text = String.ofList l) (h : grouped l) :
    grouped text.toList := by
  rwa [htext, String.toList_ofList]

set_option maxRecDepth 2000 in
/-- The texts are taken apart as lists of characters, for taking the encoded texts apart is slow. -/
theorem grouped_notices : ∀ form ∈ NoticeForm.all, ∀ e ∈ form.texts, grouped e.2.toList := by
  have htexts (form : NoticeForm) (hen : grouped form.english.toList)
      (hja : grouped form.japanese.toList) : ∀ e ∈ form.texts, grouped e.2.toList := by
    simp [NoticeForm.texts, hen, hja]
  simp only [NoticeForm.all, List.forall_mem_cons, List.not_mem_nil, false_imp_iff, implies_true,
    and_true]
  and_intros
  all_goals refine htexts _ (grouped_toList rfl ?_) (grouped_toList rfl ?_) <;> decide +kernel

/-- The order of the items does not matter for any texts exactly if what is put in for one
placeholder completes no other, those that stand for themselves apart. It never matters if each
opening brace starts a placeholder in the texts, as it does in all notices, and there is none in
what is put in. -/
theorem filledAlike_iff (hitems : Named items) :
    ((∀ texts : Table String, texts.names.Nodup → FilledAlike items texts) ↔
      ∀ i ∈ items, ∀ j ∈ items, i.1 ≠ j.1 → j.2.toList ≠ placeholder j.1 →
        ¬ Completes i.2.toList j.1) ∧
    ((∀ item ∈ items, '{' ∉ item.2.toList) → ∀ texts : Table String, texts.names.Nodup →
      (∀ e ∈ texts, grouped e.2.toList) → FilledAlike items texts) ∧
    ∀ form ∈ NoticeForm.all, ∀ e ∈ form.texts, grouped e.2.toList := by
  refine ⟨?_, ?_, grouped_notices⟩
  · rw [← filled_fillIn_iff hitems]
    refine ⟨fun h text items' hperm => ?_, fun h texts _ => ?_⟩
    · exact (h [("", text)] (List.nodup_singleton _)).filled hitems hperm
    · exact filledAlike_of_filled hitems fun e _ => h e.2
  · intro hvalues texts _ htexts
    refine filledAlike_of_filled hitems fun e he items' hperm => ?_
    have hfilled := filled_fillIn_of_grouped (hitems.perm hperm)
      (fun item hitem => hvalues item (hperm.mem_iff.1 hitem)) (htexts e he)
    exact hfilled.congr fun item => hperm.mem_iff

/-- Two items of which one is put in as the placeholder of the other. -/
theorem not_filledAlike_nested :
    Named [("index", "\x7bcollection\x7d"), ("collection", "[7]")] ∧
    ¬ ∀ texts : Table String, texts.names.Nodup →
      FilledAlike [("index", "\x7bcollection\x7d"), ("collection", "[7]")] texts := by
  have hitems : Named [("index", "\x7bcollection\x7d"), ("collection", "[7]")] :=
    ⟨by decide, by unfold Braceless; decide⟩
  refine ⟨hitems, fun h => ?_⟩
  refine (filledAlike_iff hitems).1.1 h _ List.mem_cons_self _
    (List.mem_cons_of_mem _ List.mem_cons_self) (by decide) (by decide) ?_
  exact ⟨[], [], by decide⟩

end ScriptLang
