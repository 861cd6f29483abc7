import Posting.Main
import Posting.Profile.Codec
import Posting.Sample
import Posting.Proofs.TransactionFile
import Posting.Proofs.History
import Posting.Proofs.RowReading
import Posting.Proofs.ControlTotals
import Posting.Proofs.DisplayPatterns
import Posting.Proofs.FilePaths
import Posting.Proofs.FileTrees
import Posting.Proofs.FileEffects
import Posting.Proofs.BatchFiles
import Posting.Proofs.RunEndings
import Posting.Proofs.JsonGrammar
import Posting.Proofs.JsonScanning
import Posting.Proofs.RecordReading
import Posting.Proofs.LoadedTransactions
import Posting.Proofs.GrowingFiles
import Posting.Proofs.RowNumbers
import Posting.Proofs.LineBreaks
import Posting.Proofs.DirectoryMaking
import Posting.Proofs.FileNames
import Posting.Proofs.SavedFiles
import Posting.Proofs.RepeatedRuns
import Posting.Proofs.DecimalTexts
import Posting.Proofs.LayoutAgreement
import Posting.Proofs.RunMonths
import Posting.Proofs.VariableReadings
import Posting.Proofs.LoadedSettings
import Posting.Proofs.AmountTexts
import Posting.Proofs.DateEncodings
import Posting.Proofs.FiscalPositions
import Posting.Proofs.JsonCompleteness
import Posting.Proofs.RecordForms
import Posting.Proofs.RecordTexts
import Posting.Proofs.TransactionForms
import Posting.Proofs.DestinationNames
import Posting.Proofs.ProfileVerdicts
import Posting.Proofs.FieldUse
import Posting.Proofs.DerivedReferences
import Posting.Proofs.TruncatedTexts
