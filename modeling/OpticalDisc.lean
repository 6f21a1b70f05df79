import OpticalDisc.Main
import OpticalDisc.Proofs.Dvd.AcceptedRoute
import OpticalDisc.Proofs.Dvd.PlayheadInvariant
import OpticalDisc.Proofs.Dvd.PlayheadMoves
import OpticalDisc.Proofs.Dvd.PlayheadWords
import OpticalDisc.Proofs.Dvd.StreamSteps
import OpticalDisc.Proofs.Dvd.StreamOpening
import OpticalDisc.Proofs.Dvd.PlayheadAlike
import OpticalDisc.Proofs.Dvd.StreamRetries
import OpticalDisc.Proofs.Dvd.PlayheadContents
import OpticalDisc.Proofs.Dvd.StreamRefinement
import OpticalDisc.Proofs.Storage.StoreContents
import OpticalDisc.Proofs.Storage.SectorReads
import OpticalDisc.Proofs.Dvd.StreamDrain
import OpticalDisc.Proofs.Dvd.FolderFiles
import OpticalDisc.Proofs.Dvd.FolderVideo
import OpticalDisc.Proofs.Files.PlainNames
import OpticalDisc.Proofs.Dvd.CanonicalCells
import OpticalDisc.Proofs.Dvd.LinearPlan
import OpticalDisc.Proofs.Dvd.IndexTables
import OpticalDisc.Proofs.Dvd.SteadyReaders
import OpticalDisc.Proofs.Dvd.TrappingReaders
import OpticalDisc.Proofs.Dvd.TitleSetEncoding
import OpticalDisc.Proofs.PlaybackSeconds
import OpticalDisc.Proofs.LongestTitle
import OpticalDisc.Proofs.Dvd.TitleScan
import OpticalDisc.Proofs.Dvd.AutoSelection
import OpticalDisc.Proofs.Dvd.TitleChoice
import OpticalDisc.Proofs.Dvd.DiscCalls
import OpticalDisc.Proofs.Dvd.UnchangingDiscs
import OpticalDisc.Proofs.Dvd.DanglingTitles
import OpticalDisc.Proofs.Dvd.CatalogAgreement
import OpticalDisc.Proofs.CallRecords
import OpticalDisc.Proofs.Dvd.PlayheadSeeks
import OpticalDisc.Proofs.Dvd.PlayheadRequests
import OpticalDisc.Proofs.Dvd.PlayheadDrain
import OpticalDisc.Proofs.Bluray.TitleListing
import OpticalDisc.Proofs.Bluray.TitleOpening
import OpticalDisc.Proofs.Dvd.ChapterTimeline
import OpticalDisc.Proofs.Dvd.AngleChange
import OpticalDisc.Proofs.TimeConversion
import OpticalDisc.Proofs.ReportedChapters
import OpticalDisc.Proofs.Dvd.ArithmeticLimits
import OpticalDisc.Proofs.Dvd.PlayableTitles
import OpticalDisc.Proofs.TitleSelection
import OpticalDisc.Proofs.Storage.JoinedFile
import OpticalDisc.Proofs.RoundedConversion
import OpticalDisc.Proofs.Bluray.StreamLanguages
import OpticalDisc.Proofs.StreamSeeks
import OpticalDisc.Proofs.Dvd.StoredManager
import OpticalDisc.Proofs.Dvd.CellSuccessors
import OpticalDisc.Proofs.Dvd.PartTables
import OpticalDisc.Proofs.DirectScores
