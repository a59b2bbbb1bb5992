import FirmwareDownload.Config.Text
import FirmwareDownload.Proofs.Toml.Numeral
import FirmwareDownload.Proofs.Toml.Quoted

/-! Lines that give a key a value are read as the statements they are written for, one after the
other, and each adds its entry to the table that the last header opened. -/

namespace FirmwareDownload.Toml

variable {cs cs' value rest : List Char} {ss ss' : List Statement} {node : Node} {key : String}

/-! ## Values -/

/-- The text stands for the value wherever its line ends. -/
structure Spells (value : List Char) (node : Node) : Prop where
  head : ∃ c tail, value = c :: tail ∧ isBlank c = false ∧ c ≠ '[' ∧ c ≠ '{'
  read : ∀ rest, readScalar (value ++ '\n' :: rest) = some (node, '\n' :: rest)

theorem readValue_spelled (h : Spells value node) (bound depth : Nat) (rest : List Char) :
    readValue bound depth (value ++ '\n' :: rest) = some (node, '\n' :: rest) := by
  have hread := h.read rest
  obtain ⟨c, tail, rfl, -, hb, hc⟩ := h.head
  rw [List.cons_append] at hread ⊢
  cases depth <;> rw [readValue] <;> simp [hread, hb, hc]

theorem isBlank_of_class {p : Char → Bool} {c : Char} (h : p c = true) (hs : p ' ' = false)
    (ht : p '\t' = false) : isBlank c = false := by
  simp [isBlank, ne_of_class h hs, ne_of_class h ht]

theorem spells_toDigits {n : Nat} (h : n < integerBound) :
    Spells (Config.naturalText n) (.integer n) := by
  refine ⟨?_, readScalar_toDigits h⟩
  have hd := isDigit_of_mem_toDigits (n := n)
  obtain ⟨c, tail, hc⟩ := List.exists_cons_of_ne_nil (Nat.toDigits_ne_nil (n := n) (b := 10))
  have hdigit := hd c (by simp [hc])
  exact ⟨c, tail, hc, isBlank_of_class hdigit (by decide) (by decide),
    ne_of_class hdigit (by decide), ne_of_class hdigit (by decide)⟩

theorem spells_bool (b : Bool) : Spells (toString b).toList (.boolean b) := by
  refine ⟨?_, readScalar_bool b⟩
  cases b with
  | false => exact ⟨'f', ['a', 'l', 's', 'e'], rfl, rfl, by decide, by decide⟩
  | true => exact ⟨'t', ['r', 'u', 'e'], rfl, rfl, by decide, by decide⟩

theorem spells_quoted (s : String) : Spells (Config.quoted s) (.text s) := by
  have hread := Quoted.read_write s.toList
  have hhead : ∃ q tail, Config.quoted s = q :: tail ∧ (q = '"' ∨ q = '\'') := by
    unfold Config.quoted Quoted.write
    split
    · exact ⟨_, _, rfl, .inl rfl⟩
    · exact ⟨_, _, rfl, .inr rfl⟩
    · exact ⟨_, _, rfl, .inl rfl⟩
    · exact ⟨_, _, rfl, .inr rfl⟩
  obtain ⟨q, tail, hq, hor⟩ := hhead
  have hscalar : ∀ rest, readScalar (Config.quoted s ++ '\n' :: rest) =
      (Quoted.read (Config.quoted s ++ '\n' :: rest)).map
        fun read => (.text (String.ofList read.1), read.2) := by
    intro rest
    rw [hq]
    rcases hor with rfl | rfl <;> rfl
  refine ⟨⟨q, tail, hq, ?_⟩, fun rest => ?_⟩
  · rcases hor with rfl | rfl <;> decide
  · rw [hscalar, Config.quoted, hread]
    simp

/-! ## Keys -/

def IsBare (key : String) : Prop := key.toList ≠ [] ∧ key.toList.all isBareKey = true

instance (key : String) : Decidable (IsBare key) := inferInstanceAs (Decidable (_ ∧ _))

theorem IsBare.head (h : IsBare key) : ∃ c tail, key.toList = c :: tail ∧ isBareKey c = true := by
  obtain ⟨hne, hall⟩ := h
  obtain ⟨c, tail, hc⟩ := List.exists_cons_of_ne_nil hne
  exact ⟨c, tail, hc, List.all_eq_true.1 hall c (by simp [hc])⟩

theorem readKey_bare {d : Char} (h : IsBare key) (hd : isBareKey d = false) (rest : List Char) :
    readKey (key.toList ++ d :: rest) = some (key, d :: rest) := by
  have hall := List.all_eq_true.1 h.2
  obtain ⟨c, tail, hc, hbare⟩ := h.head
  rw [readKey]
  · simp [List.takeWhile_append_of_pos hall, List.dropWhile_append_of_pos hall, hd, h.1]
  · rw [hc]
    simp [ne_of_class hbare (show isBareKey '"' = false by decide)]
  · rw [hc]
    simp [ne_of_class hbare (show isBareKey '\'' = false by decide)]

theorem skipBlanks_bare (h : IsBare key) (rest : List Char) :
    skipBlanks (key.toList ++ rest) = key.toList ++ rest := by
  obtain ⟨c, tail, hc, hbare⟩ := h.head
  simp [hc, skipBlanks, isBlank_of_class hbare (by decide) (by decide)]

theorem readPath_bare {d e : Char} {more : List Char} (h : IsBare key)
    (hd : isBareKey d = false) (hb : skipBlanks (d :: rest) = e :: more) (he : e ≠ '.') :
    readPath (key.toList ++ d :: rest) = some (⟨[], key⟩, e :: more) := by
  show readKeys (78 + 1) _ = _
  rw [readKeys, skipBlanks_bare h, readKey_bare h hd]
  simp [hb, he]

/-! ## Statements -/

theorem readAssignment_line {R : Reader Node} (h : IsBare key)
    (hv : Spells value node) (hr : R (value ++ '\n' :: rest) = some (node, '\n' :: rest)) :
    readAssignment R (Config.line key value ++ rest) =
      some ((⟨[], key⟩, node), '\n' :: rest) := by
  obtain ⟨c, tail, hc, hblank, -, -⟩ := hv.head
  have hpath : readPath (key.toList ++ ' ' :: '=' :: ' ' :: (value ++ '\n' :: rest)) =
      some (⟨[], key⟩, '=' :: ' ' :: (value ++ '\n' :: rest)) :=
    readPath_bare h (by decide) rfl (by decide)
  have hskip : skipBlanks (' ' :: (value ++ '\n' :: rest)) = value ++ '\n' :: rest := by
    simp [skipBlanks, hc, hblank, show isBlank ' ' = true by decide]
  have hline : Config.line key value ++ rest =
      key.toList ++ ' ' :: '=' :: ' ' :: (value ++ '\n' :: rest) := by
    simp [Config.line]
  rw [hline, readAssignment, hpath]
  simp [hskip, hr]

theorem readStatement_line (h : IsBare key) (hv : Spells value node) (bound : Nat)
    (rest : List Char) : readStatement bound (Config.line key value ++ rest) =
      some (.assignment ⟨[], key⟩ node, rest) := by
  obtain ⟨c, tail, hc, hbare⟩ := h.head
  have hb : c ≠ '[' := ne_of_class hbare (by decide)
  have ha := readAssignment_line h hv (readValue_spelled hv bound nestingLimit rest)
  rw [Config.line, hc] at ha ⊢
  simp only [List.cons_append] at ha ⊢
  rw [readStatement, ha]
  · rfl
  · simp [hb]
  · simp [hb]

theorem readStatement_header (h : IsBare key) (bound : Nat) (rest : List Char) :
    readStatement bound ('[' :: (key.toList ++ ']' :: '\n' :: rest)) =
      some (.table ⟨[], key⟩, rest) := by
  obtain ⟨c, tail, hc, hbare⟩ := h.head
  have hb : c ≠ '[' := ne_of_class hbare (by decide)
  have hpath : readPath (key.toList ++ ']' :: '\n' :: rest) =
      some (⟨[], key⟩, ']' :: '\n' :: rest) := readPath_bare h (by decide) rfl (by decide)
  rw [readStatement, hpath]
  · rfl
  · simp [hc, hb]

/-- The lines are read as the statements, whatever is read behind them. -/
structure Reads (cs : List Char) (ss : List Statement) : Prop where
  length_le : ss.length ≤ cs.length
  read : ∀ {bound n rest ss'}, readStatements bound n rest = some ss' →
    readStatements bound (n + ss.length) (cs ++ rest) = some (ss ++ ss')

theorem reads_nil : Reads [] [] := ⟨Nat.le_refl _, fun h => h⟩

theorem Reads.append (h : Reads cs ss) (h' : Reads cs' ss') : Reads (cs ++ cs') (ss ++ ss') := by
  constructor
  · have := h.length_le
    have := h'.length_le
    simp only [List.length_append]
    omega
  · intro bound n rest later hr
    have hr := h.read (h'.read hr)
    rw [List.append_assoc, List.append_assoc, List.length_append, Nat.add_comm ss.length,
      ← Nat.add_assoc]
    exact hr

theorem reads_statement {s : Statement} {c : Char} {tail : List Char} (hc : isBlank c = false)
    (hn : c ≠ '\n') (hr : c ≠ '\r') (hh : c ≠ '#')
    (h : ∀ bound rest, readStatement bound (c :: tail ++ rest) = some (s, rest)) :
    Reads (c :: tail) [s] := by
  constructor
  · simp
  · intro bound n rest ss' hrest
    have hs := h bound rest
    have hskip : skipLayout (c :: tail ++ rest) = c :: tail ++ rest := by
      rw [List.cons_append, skipLayout, skipFrom] <;> simp [hc, hn, hr, hh]
    show readStatements bound (n + 1) _ = _
    rw [readStatements, hskip]
    rw [List.cons_append] at hs ⊢
    simp [hs, hrest, hh]

theorem reads_line (h : IsBare key) (hv : Spells value node) :
    Reads (Config.line key value) [.assignment ⟨[], key⟩ node] := by
  have hread := readStatement_line h hv
  obtain ⟨c, tail, hc, hbare⟩ := h.head
  rw [Config.line, hc] at hread ⊢
  exact reads_statement (isBlank_of_class hbare (by decide) (by decide))
    (ne_of_class hbare (by decide)) (ne_of_class hbare (by decide))
    (ne_of_class hbare (by decide)) hread

theorem reads_break : Reads ['\n'] [] := by
  refine ⟨Nat.zero_le _, fun {bound n rest ss'} h => ?_⟩
  have hskip : skipLayout ('\n' :: rest) = skipLayout rest := rfl
  show readStatements bound n ('\n' :: rest) = _
  cases n with
  | zero => exact h
  | succ n =>
    rw [readStatements, hskip]
    rw [readStatements] at h
    exact h

theorem reads_header (h : IsBare key) :
    Reads ('[' :: key.toList ++ [']', '\n']) [.table ⟨[], key⟩] := by
  refine reads_statement (by decide) (by decide) (by decide) (by decide) fun bound rest => ?_
  simpa using readStatement_header h bound rest

/-! ## The table they build up -/

namespace Document

variable {entries inner : Entries} {name : String}

theorem read_of_reads (h : Reads cs ss) (hm : cs.head? ≠ some '\ufeff') :
    Document.read cs = (ss.foldlM apply {}).map Document.entries := by
  have hmark : skipMark cs = cs := by
    unfold skipMark
    split
    · exact absurd rfl hm
    · rfl
  have hle := h.length_le
  obtain ⟨n, hn⟩ : ∃ n, cs.length + 1 = n + 1 + ss.length := ⟨cs.length - ss.length, by omega⟩
  have hread : readStatements (cs.length + 1) (n + 1 + ss.length) (cs ++ []) = some (ss ++ []) :=
    h.read rfl
  rw [List.append_nil, List.append_nil, ← hn] at hread
  simp [Document.read, hmark, hread]

def assignments (pairs : Entries) : List Statement :=
  pairs.map fun (key, value) => .assignment ⟨[], key⟩ value

@[simp] theorem assignments_nil : assignments [] = [] := rfl

@[simp] theorem assignments_cons (key : String) (value : Node) (pairs : Entries) :
    assignments ((key, value) :: pairs) = .assignment ⟨[], key⟩ value :: assignments pairs := rfl

@[simp] theorem assignments_append (pairs pairs' : Entries) :
    assignments (pairs ++ pairs') = assignments pairs ++ assignments pairs' :=
  List.map_append

theorem lookup_eq_none {entries : Entries} (h : key ∉ entries.map Prod.fst) :
    entries.lookup key = none := by
  rw [List.lookup_eq_none_iff]
  intro entry he
  have : entry.1 ≠ key := by
    rintro rfl
    exact h (List.mem_map_of_mem he)
  simpa using this.symm

theorem apply_root (h : entries.lookup key = none) :
    apply ⟨entries, []⟩ (.assignment ⟨[], key⟩ node) = some ⟨entries ++ [(key, node)], []⟩ := by
  simp [apply, Entries.alter, Entries.assign, Entries.add, h]

theorem apply_table (h : entries.lookup name = none) :
    apply ⟨entries, []⟩ (.table ⟨[], name⟩) =
      some ⟨entries ++ [(name, .table .explicit [])], [name]⟩ := by
  simp [apply, Entries.openTable, Entries.alter, Entries.add, h, KeyPath.toList]

theorem apply_header (hn : name ∉ entries.map Prod.fst) (h : inner.lookup key = none) :
    apply ⟨entries ++ [(name, .table .explicit inner)], [name]⟩ (.assignment ⟨[], key⟩ node) =
      some ⟨entries ++ [(name, .table .explicit (inner ++ [(key, node)]))], [name]⟩ := by
  have hlookup : (entries ++ [(name, Node.table .explicit inner)]).lookup name =
      some (.table .explicit inner) := by
    simp [List.lookup_append, lookup_eq_none hn]
  have hput (node : Node) :
      entries.map (fun entry => if entry.1 = name then (name, node) else entry) = entries := by
    have hid : ∀ entry ∈ entries,
        (if entry.1 = name then (name, node) else entry) = id entry := by
      intro entry he
      apply if_neg
      rintro rfl
      exact hn (List.mem_map_of_mem he)
    rw [List.map_congr_left hid, List.map_id]
  simp [apply, Entries.alter, Entries.assign, Entries.add, hlookup, h, Route.admits, Entries.put,
    hput]

theorem foldlM_root {pairs : Entries} (h : ((entries ++ pairs).map Prod.fst).Nodup) :
    (assignments pairs).foldlM apply ⟨entries, []⟩ = some ⟨entries ++ pairs, []⟩ := by
  induction pairs generalizing entries with
  | nil => simp
  | cons pair pairs ih =>
    obtain ⟨key, value⟩ := pair
    have hnew : key ∉ entries.map Prod.fst := by
      intro hk
      rw [List.map_append, List.nodup_append] at h
      exact h.2.2 key hk key (by simp) rfl
    have ih := @ih (entries ++ [(key, value)]) (by simpa using h)
    simpa [apply_root (lookup_eq_none hnew)] using ih

theorem foldlM_header {pairs : Entries} (hn : name ∉ entries.map Prod.fst)
    (h : ((inner ++ pairs).map Prod.fst).Nodup) :
    (assignments pairs).foldlM apply ⟨entries ++ [(name, .table .explicit inner)], [name]⟩ =
      some ⟨entries ++ [(name, .table .explicit (inner ++ pairs))], [name]⟩ := by
  induction pairs generalizing inner with
  | nil => simp
  | cons pair pairs ih =>
    obtain ⟨key, value⟩ := pair
    have hnew : key ∉ inner.map Prod.fst := by
      intro hk
      rw [List.map_append, List.nodup_append] at h
      exact h.2.2 key hk key (by simp) rfl
    have ih := @ih (inner ++ [(key, value)]) (by simpa using h)
    simpa [apply_header hn (lookup_eq_none hnew)] using ih

/-- A document of assignments, a header, and assignments under it. -/
theorem foldlM_document {root : Entries} (hr : ((root.map Prod.fst) ++ [name]).Nodup)
    (hi : (inner.map Prod.fst).Nodup) :
    (assignments root ++ .table ⟨[], name⟩ :: assignments inner).foldlM apply {} =
      some ⟨root ++ [(name, .table .explicit inner)], [name]⟩ := by
  rw [List.nodup_append] at hr
  have hn : name ∉ root.map Prod.fst := fun h => hr.2.2 name h name (by simp) rfl
  have hroot := @foldlM_root [] root (by simpa using hr.1)
  have hinner := @foldlM_header root [] name inner hn (by simpa using hi)
  simp only [List.nil_append] at hroot hinner
  rw [List.foldlM_append]
  show (assignments root).foldlM apply ⟨[], []⟩ >>= _ = _
  simp [hroot, apply_table (lookup_eq_none hn), hinner]

end Document

end FirmwareDownload.Toml
