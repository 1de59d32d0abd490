import AmosBasic.Session

namespace AmosBasic

open Reading

namespace OpenFile

def deliverLines (file : OpenFile) : Nat → Summary → Reading Summary
  | 0, summary => return summary
  | fuel + 1, summary => do
    if ← file.isExhausted then return summary
    else
      let line ← file.readLine
      handOver (.line line)
      file.deliverLines fuel summary.addLine

def deliverBanks : Nat → Summary → Reading Summary
  | 0, summary => return summary
  | fuel + 1, summary => do
    if (← currentProgress).banksRemaining = 0 then return summary
    else
      let bank ← Bank.reading
      handOver (.bank bank.content)
      deliverBanks fuel (summary.addBank bank.content)

def decoding (file : OpenFile) (sourceOnly : Bool) : Reading Summary := do
  let lines ← file.deliverLines file.header.sourceLength { header := file.header }
  let summary ←
    if sourceOnly then pure lines
    else do
      let count ← file.readBankCount
      deliverBanks count lines
  remark (.finished summary)
  return summary

end OpenFile

/-- Opens a file and hands all of it to the receiver. The first refusal ends the run. -/
def decode {σ : Type} (sink : Sink σ) (options : DecodeOptions) (sourceOnly : Bool) (machine : Machine σ) :
    Except DecodeError Summary × Machine σ :=
  match OpenFile.openOn sink options machine with
  | (.error error, opened) => (.error error, opened)
  | (.ok file, opened) => (file.decoding sourceOnly).run sink opened

end AmosBasic
