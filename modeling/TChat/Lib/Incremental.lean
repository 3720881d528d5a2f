import Mathlib
/-!
# Incremental readers

A reader takes items off the front of a buffer.  With too little in the buffer it
waits, and on something it cannot accept it stops for good.  If more data never
changes what has been decided, then reading as far as possible after every piece of
a stream comes to the same as reading the whole stream at once.
-/

namespace TChat.Lib

inductive Front (α ρ : Type)
  | wait
  | item (result : ρ) (rest : List α)
  | stop (result : ρ)

/-- A reader whose decisions are final. -/
structure Reader (α ρ : Type) where
  front : List α → Front α ρ
  shorter : ∀ {buffer result rest}, front buffer = .item result rest →
    rest.length < buffer.length
  item_append : ∀ {buffer result rest}, front buffer = .item result rest →
    ∀ more, front (buffer ++ more) = .item result (rest ++ more)
  stop_append : ∀ {buffer result}, front buffer = .stop result →
    ∀ more, front (buffer ++ more) = .stop result

/-- How far a reader has got: the results so far, and the buffer, `none` once the
reader has stopped. -/
@[ext] structure Reading (α ρ : Type) where
  results : List ρ
  buffer : Option (List α)

variable {α ρ ξ : Type} {reader : Reader α ρ} {buffer rest : List α} {result : ρ}

def Reading.after (earlier : List ρ) (reading : Reading α ρ) : Reading α ρ :=
  { reading with results := earlier ++ reading.results }

namespace Reader

def drain (reader : Reader α ρ) (buffer : List α) : Reading α ρ :=
  match h : reader.front buffer with
  | .wait => ⟨[], some buffer⟩
  | .item result rest =>
      have := reader.shorter h
      (reader.drain rest).after [result]
  | .stop result => ⟨[result], none⟩
termination_by buffer.length

def receive (reader : Reader α ρ) (reading : Reading α ρ) (piece : List α) : Reading α ρ :=
  match reading.buffer with
  | none => reading
  | some buffer => (reader.drain (buffer ++ piece)).after reading.results

def receiveAll (reader : Reader α ρ) (reading : Reading α ρ) (pieces : List (List α)) :
    Reading α ρ :=
  pieces.foldl reader.receive reading

theorem drain_wait (h : reader.front buffer = .wait) : reader.drain buffer = ⟨[], some buffer⟩ := by
  rw [drain]
  split <;> simp_all

theorem drain_item (h : reader.front buffer = .item result rest) :
    reader.drain buffer = (reader.drain rest).after [result] := by
  rw [drain]
  split <;> simp_all

theorem drain_stop (h : reader.front buffer = .stop result) :
    reader.drain buffer = ⟨[result], none⟩ := by
  rw [drain]
  split <;> simp_all

theorem receive_after (earlier : List ρ) (reading : Reading α ρ) (piece : List α) :
    reader.receive (reading.after earlier) piece =
      (reader.receive reading piece).after earlier := by
  obtain ⟨results, buffer⟩ := reading
  cases buffer with
  | none => rfl
  | some buffer => simp [receive, Reading.after]

theorem drain_append (reader : Reader α ρ) (buffer more : List α) :
    reader.drain (buffer ++ more) = reader.receive (reader.drain buffer) more := by
  fun_induction drain reader buffer with
  | case1 buffer h => simp [receive, Reading.after]
  | case2 buffer result rest h _ ih =>
      rw [drain_item (reader.item_append h more), ih, receive_after]
  | case3 buffer result h => rw [drain_stop (reader.stop_append h more), receive]

theorem receive_append (reading : Reading α ρ) (piece more : List α) :
    reader.receive reading (piece ++ more) =
      reader.receive (reader.receive reading piece) more := by
  obtain ⟨results, buffer⟩ := reading
  cases buffer with
  | none => rfl
  | some buffer =>
      simp only [receive]
      rw [← receive, receive_after, ← List.append_assoc, drain_append]

/-- The pieces of a stream come to the same as the stream in one piece. -/
theorem receiveAll_eq (reading : Reading α ρ) {pieces : List (List α)} (h : pieces ≠ []) :
    reader.receiveAll reading pieces = reader.receive reading pieces.flatten := by
  induction pieces generalizing reading with
  | nil => exact absurd rfl h
  | cons piece pieces ih =>
      rw [receiveAll, List.foldl_cons, ← receiveAll, List.flatten_cons, receive_append]
      by_cases hlast : pieces = []
      · subst hlast
        rw [List.flatten_nil, ← receive_append, List.append_nil]
        rfl
      · exact ih _ hlast

/-- What has been read of a stream is the beginning of what is read of a longer one. -/
theorem results_prefix {stream whole : List α} (h : stream <+: whole) :
    (reader.drain stream).results <+: (reader.drain whole).results := by
  obtain ⟨more, rfl⟩ := h
  rw [drain_append]
  obtain ⟨results, buffer⟩ := reader.drain stream
  cases buffer with
  | none => exact List.prefix_rfl
  | some buffer => exact List.prefix_append _ _

/-- A stream of encoded items is read back item by item. -/
theorem drain_encoded {encode : ξ → List α} {meaning : ξ → ρ} {items : List ξ}
    (hnil : reader.front [] = .wait)
    (hencode : ∀ x ∈ items, ∀ more, reader.front (encode x ++ more) = .item (meaning x) more) :
    reader.drain (items.flatMap encode) = ⟨items.map meaning, some []⟩ := by
  induction items with
  | nil => exact drain_wait hnil
  | cons x items ih =>
      rw [List.flatMap_cons, drain_item (hencode x List.mem_cons_self _),
        ih fun y hy => hencode y (List.mem_cons_of_mem _ hy)]
      rfl

/-- A stream of encoded items that is cut off somewhere is read item by item, up to the cut or
to the first item that stops the reader. -/
theorem drain_encoded_prefix {encode : ξ → List α} {meaning : ξ → ρ} {items : List ξ}
    {stream : List α} (hnil : reader.front [] = .wait)
    (hencode : ∀ x ∈ items, (∀ more, reader.front (encode x ++ more) = .item (meaning x) more) ∨
      ∀ more, reader.front (encode x ++ more) = .stop (meaning x))
    (hstream : stream <+: items.flatMap encode) :
    ∃ readItems stopped, readItems <+: items ∧
      (∀ x ∈ readItems, ∀ more, reader.front (encode x ++ more) = .item (meaning x) more) ∧
      (∀ x ∈ stopped, ∀ more, reader.front (encode x ++ more) = .stop (meaning x)) ∧
      (reader.drain stream).results = (readItems ++ stopped).map meaning := by
  have hwhole : ∃ readItems stopped, readItems <+: items ∧
      (∀ x ∈ readItems, ∀ more, reader.front (encode x ++ more) = .item (meaning x) more) ∧
      (∀ x ∈ stopped, ∀ more, reader.front (encode x ++ more) = .stop (meaning x)) ∧
      (reader.drain (items.flatMap encode)).results = (readItems ++ stopped).map meaning := by
    clear hstream
    induction items with
    | nil =>
        refine ⟨[], [], List.prefix_rfl, by simp, by simp, ?_⟩
        rw [List.flatMap_nil, drain_wait hnil]
        rfl
    | cons x items ih =>
        rw [List.flatMap_cons]
        rcases hencode x List.mem_cons_self with hitem | hstop
        · obtain ⟨readItems, stopped, hread, hitems, hstops, hresults⟩ :=
            ih fun y hy => hencode y (List.mem_cons_of_mem _ hy)
          refine ⟨x :: readItems, stopped, List.cons_prefix_cons.mpr ⟨rfl, hread⟩, ?_, hstops, ?_⟩
          · simpa using ⟨hitem, hitems⟩
          · rw [drain_item (hitem _), Reading.after, hresults]
            rfl
        · refine ⟨[], [x], List.nil_prefix, by simp, by simpa using hstop, ?_⟩
          rw [drain_stop (hstop _)]
          rfl
  obtain ⟨readItems, stopped, hread, hitems, hstops, hresults⟩ := hwhole
  have hcut := reader.results_prefix hstream
  rw [hresults, List.prefix_iff_eq_take, ← List.map_take, List.take_append] at hcut
  refine ⟨_, _, (List.take_prefix _ _).trans hread, ?_, ?_, hcut⟩
  · exact fun x hx => hitems x (List.mem_of_mem_take hx)
  · exact fun x hx => hstops x (List.mem_of_mem_take hx)

end Reader

end TChat.Lib
